import McpZero.Audit.Observers
import McpZero.Main
import McpZero.Plugins.Manager

/-! The pipeline that the gateway builds at its start, with the plugins of the policy. A declared
priority is read from the document and not handed to the plugin. -/
namespace McpZero.Main
open Python Lib Pipeline Governance Identity Plugins Analytics Audit Events

/-- What the pipeline is built from. There is an identity hook where an identity provider is
configured and an analytics hook where there is a collector. -/
structure Startup (η σ : Type) where
  identity : Option (IdentityHook (ObservedWorld η σ))
  policy : Option PolicyConfig
  analytics : Option (AnalyticsHook (AuditLog η × σ))
  audit : AuditHook η σ
  available : Available η (ObservedWorld η σ)

/-- A plugin that registers one hook. -/
structure OneHook (η σ : Type) where
  priority : ℤ
  hook : LifecycleHook σ
  handlers : List (EventHandler η) := []

/-- The declaration is loaded as a plugin that registers this hook. -/
def LoadsAs {η σ : Type} (available : Available η σ) (decl : PluginDeclaration)
    (plugin : OneHook η σ) : Prop :=
  ∃ loaded, PluginManager.loadOne available decl = .ok loaded ∧
    loaded.registrations = .ok [(plugin.priority, plugin.hook)] ∧
    loaded.eventHandlers = .ok plugin.handlers

/-- The priority at which a hook is to run: the declared one, if there is one. A value that is no
number is the priority of nothing. -/
def effectivePriority (declared : Value) (own : ℤ) : Option ℚ :=
  match declared with
  | .none => some own
  | .scalar a =>
    match a.number? with
    | some (.finite q) => some q
    | _ => none
  | _ => none

/-- The entries run the hooks at the wanted priorities, by increasing priority and those of one
priority in the order of registration. -/
structure Honoured {σ : Type} (entries : List (ℤ × ℕ × LifecycleHook σ))
    (wanted : List (Option ℚ × LifecycleHook σ)) : Prop where
  runs (i : ℕ) (w : Option ℚ × LifecycleHook σ) : wanted[i]? = some w →
    ∃ e ∈ entries, e.2 = (i, w.2) ∧ w.1 = some (e.1 : ℚ)
  ordered : entries.Pairwise fun a b => a.1 < b.1 ∨ (a.1 = b.1 ∧ a.2.1 < b.2.1)
  length : entries.length = wanted.length

namespace Startup

variable {η σ : Type} (s : Startup η σ)

def governance (policy : PolicyConfig) : GovernanceHook where
  policy := policy
  identityRequired := s.identity.isSome

/-- The audit hook hands its events to the bus that the plugins have subscribed to. -/
def auditHook (bus : EventBus η) : LifecycleHook (ObservedWorld η σ) :=
  AuditHook.toHook { s.audit with eventBus := some bus } |>.beside

def loadDeclared (r : HookRegistry (ObservedWorld η σ)) :
    Except Exc (HookRegistry (ObservedWorld η σ) × EventBus η) :=
  match s.policy with
  | some p => PluginManager.loadPlugins s.available p.plugins r {}
  | none => .ok (r, {})

/-- The registry as `_build_pipeline` fills it. -/
def registry : Except Exc (HookRegistry (ObservedWorld η σ)) := do
  let r ← CoreHooks.registerSome {} (s.identity.map (·.toHook)) 10
  let r ← CoreHooks.registerSome r (s.policy.map fun p => (s.governance p).toHook) 50
  let (r, bus) ← s.loadDeclared r
  let r ← CoreHooks.registerSome r (s.analytics.map (·.toHook)) 145
  r.register (s.auditHook bus) 150

/-- `_build_pipeline`. There is no pipeline without identity and policy. -/
def buildPipeline : Except Exc (Option (List (LifecycleHook (ObservedWorld η σ)))) := do
  let r ← s.registry
  if s.identity.isNone && s.policy.isNone then return none
  let hooks ← r.build.getHooks
  return some hooks

def declarations : List PluginDeclaration := s.policy.elim [] (·.plugins)

/-- What is registered before the plugins. -/
def early : List (ℤ × LifecycleHook (ObservedWorld η σ)) :=
  (s.identity.map fun h => (10, h.toHook)).toList ++
    (s.policy.map fun p => (50, (s.governance p).toHook)).toList

/-- What is registered after the plugins. -/
def late (handlers : List (EventHandler η)) : List (ℤ × LifecycleHook (ObservedWorld η σ)) :=
  (s.analytics.map fun h => (145, h.toHook)).toList ++ [(150, s.auditHook { handlers })]

theorem registerSome_filled {ω : Type} (before : List (ℤ × LifecycleHook ω))
    (hook : Option (LifecycleHook ω)) (priority : ℤ) :
    CoreHooks.registerSome (filled before) hook priority =
      .ok (filled (before ++ (hook.map fun h => (priority, h)).toList)) := by
  cases hook with
  | none => simp [CoreHooks.registerSome]
  | some h => exact register_filled before h priority

theorem loadDeclared_filled (before : List (ℤ × LifecycleHook (ObservedWorld η σ))) :
    s.loadDeclared (filled before) =
      (PluginManager.collect s.available s.declarations).map fun c =>
        (filled (before ++ c.1), { handlers := c.2 }) := by
  unfold loadDeclared declarations
  cases s.policy with
  | none => simp [Except.map]
  | some p => simp [PluginManager.loadPlugins_filled]

/-- The registry holds what is registered, in order, unless a plugin raises. -/
theorem registry_eq :
    s.registry = (PluginManager.collect s.available s.declarations).map fun c =>
      filled (s.early ++ c.1 ++ s.late c.2) := by
  have hempty : ({} : HookRegistry (ObservedWorld η σ)) = filled [] := rfl
  unfold registry
  rw [hempty, registerSome_filled]
  simp only [bind, Except.bind, registerSome_filled, loadDeclared_filled]
  cases PluginManager.collect s.available s.declarations with
  | error e => rfl
  | ok c =>
    simp only [Except.map, registerSome_filled, register_filled, early, late, List.nil_append,
      List.append_assoc, Option.map_map]
    rfl

/-- All that is registered, when the plugins register `c`. -/
def registrations (c : List (ℤ × LifecycleHook (ObservedWorld η σ)) × List (EventHandler η)) :
    List (ℤ × LifecycleHook (ObservedWorld η σ)) :=
  s.early ++ c.1 ++ s.late c.2

theorem buildPipeline_eq {p : PolicyConfig} (hp : s.policy = some p) :
    s.buildPipeline = (PluginManager.collect s.available p.plugins).map fun c =>
      some ((filled (s.registrations c)).build.entries.map (·.2.2)) := by
  unfold buildPipeline
  rw [registry_eq]
  simp only [declarations, hp, Option.elim_some, Option.isNone_some, Bool.and_false]
  cases PluginManager.collect s.available p.plugins with
  | error e => rfl
  | ok c => rfl

/-- A hook that only watches, as an observer. -/
def observer {ω : Type} (hook : LifecycleHook ω) : Main.Observer ω where
  name := hook.name
  onPreAudit := hook.onPreAudit
  onError := hook.onError

/-- The core hooks alone. -/
def coreHooks : CoreHooks (ObservedWorld η σ) where
  identity := s.identity
  policy := s.policy
  analytics := s.analytics.map fun h => observer h.toHook
  audit := observer (s.auditHook {})

/-- Without plugins the pipeline is the one of the core hooks. -/
theorem buildPipeline_of_no_plugins (h : s.declarations = []) :
    s.buildPipeline = s.coreHooks.buildPipeline := by
  have hanalytics : (s.analytics.map fun h => observer h.toHook).map (·.toHook) =
      s.analytics.map (·.toHook) := by
    rw [Option.map_map]
    rfl
  have haudit : (observer (s.auditHook {})).toHook = s.auditHook {} := rfl
  have hload : ∀ r, s.loadDeclared r = .ok (r, {}) := by
    intro r
    unfold loadDeclared
    unfold declarations at h
    cases hp : s.policy with
    | none => rfl
    | some p =>
      rw [hp, Option.elim_some] at h
      simp [h, PluginManager.loadPlugins]
  unfold buildPipeline registry CoreHooks.buildPipeline coreHooks
  simp only [hanalytics, haudit, hload, bind_assoc]
  rfl

end Startup

end McpZero.Main

import McpZero.Governance.Loader
import McpZero.Main.Startup
import McpZero.Masking.Hook

/-! The masking section of the policy. It is built and checked by the loader and read by nothing
else: only a declared plugin can put a masking hook into the pipeline. -/
namespace McpZero.Main
open Python Lib Pipeline Governance Plugins Audit Events Masking

variable {η σ : Type}

/-- What a declaration is loaded to. -/
def Loads (available : Available η σ) (decl : PluginDeclaration)
    (regs : List (ℤ × LifecycleHook σ)) (handlers : List (EventHandler η)) : Prop :=
  ∃ plugin, PluginManager.loadOne available decl = .ok plugin ∧
    plugin.registrations = .ok regs ∧ plugin.eventHandlers = .ok handlers

/-- A masking hook that is enabled for exactly these entities. -/
def MasksExactly (entities : Value) (hook : LifecycleHook σ) : Prop :=
  ∃ m : MaskingHook, m.config.enabled = true ∧ .ofStrings m.config.entities = entities ∧
    hook = m.toHook

/-- Where the section enables the masking, the pipeline masks its entities or is not built. -/
def MaskingHonoured (s : Startup η σ) (p : PolicyConfig) : Prop :=
  p.masking.presidio.enabled.truthy = true →
    (∃ e, s.buildPipeline = .error e) ∨
      ∃ hooks, s.buildPipeline = .ok (some hooks) ∧
        ∃ hook ∈ hooks, MasksExactly p.masking.presidio.entities hook

/-- Where the section enables the masking, a declared plugin fails to load, or a declared plugin
masks exactly the entities of the section. -/
def MaskingProvided (available : Available η (ObservedWorld η σ)) (p : PolicyConfig) : Prop :=
  p.masking.presidio.enabled.truthy = true →
    (∃ decl ∈ p.plugins, ∀ regs handlers, ¬ Loads available decl regs handlers) ∨
      ∃ decl ∈ p.plugins, ∃ regs handlers, Loads available decl regs handlers ∧
        ∃ reg ∈ regs, MasksExactly p.masking.presidio.entities reg.2

theorem collect_eq_error_iff {available : Available η σ} {decls : List PluginDeclaration} :
    (∃ e, PluginManager.collect available decls = .error e) ↔
      ∃ decl ∈ decls, ∀ regs handlers, ¬ Loads available decl regs handlers := by
  induction decls with
  | nil => simp [PluginManager.collect]
  | cons decl decls ih =>
    rw [List.exists_mem_cons_iff, ← ih]
    constructor
    · intro h
      by_cases hloads : ∃ regs handlers, Loads available decl regs handlers
      · obtain ⟨regs, handlers, plugin, hplugin, hregs, hhandlers⟩ := hloads
        refine .inr ?_
        cases hrest : PluginManager.collect available decls with
        | error e => exact ⟨e, rfl⟩
        | ok rest =>
          obtain ⟨e, he⟩ := h
          rw [PluginManager.collect_cons_eq_ok.mpr
            ⟨plugin, regs, handlers, rest, hplugin, hregs, hhandlers, hrest, rfl⟩] at he
          cases he
      · push Not at hloads
        exact .inl hloads
    · intro h
      cases hcollect : PluginManager.collect available (decl :: decls) with
      | error e => exact ⟨e, rfl⟩
      | ok c =>
        obtain ⟨plugin, regs, handlers, rest, hplugin, hregs, hhandlers, hrest, -⟩ :=
          PluginManager.collect_cons_eq_ok.mp hcollect
        rcases h with hfails | ⟨e, he⟩
        · exact absurd ⟨plugin, hplugin, hregs, hhandlers⟩ (hfails regs handlers)
        · rw [hrest] at he
          cases he

/-- The registrations of a list of plugins are those of its members. -/
theorem mem_collect {available : Available η σ} {decls : List PluginDeclaration}
    {c : List (ℤ × LifecycleHook σ) × List (EventHandler η)}
    (h : PluginManager.collect available decls = .ok c) {reg : ℤ × LifecycleHook σ} :
    reg ∈ c.1 ↔ ∃ decl ∈ decls, ∃ regs handlers, Loads available decl regs handlers ∧ reg ∈ regs := by
  induction decls generalizing c with
  | nil =>
    cases h
    simp
  | cons decl decls ih =>
    obtain ⟨plugin, regs, handlers, rest, hplugin, hregs, hhandlers, hrest, rfl⟩ :=
      PluginManager.collect_cons_eq_ok.mp h
    have hloads : (∃ regs' handlers', Loads available decl regs' handlers' ∧ reg ∈ regs') ↔
        reg ∈ regs := by
      constructor
      · intro h'
        obtain ⟨regs', handlers', ⟨plugin', hplugin', hregs', -⟩, hmem⟩ := h'
        obtain rfl := Except.ok.inj (hplugin.symm.trans hplugin')
        obtain rfl := Except.ok.inj (hregs.symm.trans hregs')
        exact hmem
      · intro hmem
        exact ⟨regs, handlers, ⟨plugin, hplugin, hregs, hhandlers⟩, hmem⟩
    rw [List.mem_append, List.exists_mem_cons_iff, hloads, ih hrest]

namespace Startup

variable (s : Startup η σ)

/-- No core hook is a masking hook. -/
theorem name_ne_of_core {c : List (ℤ × LifecycleHook (ObservedWorld η σ)) × List (EventHandler η)}
    {reg : ℤ × LifecycleHook (ObservedWorld η σ)} (h : reg ∈ s.early ++ s.late c.2) :
    reg.2.name ≠ "MaskingHook" := by
  unfold early late at h
  simp only [List.mem_append, Option.mem_toList, Option.map_eq_some_iff, List.mem_singleton] at h
  rcases h with (⟨hook, -, rfl⟩ | ⟨p, -, rfl⟩) | ⟨hook, -, rfl⟩ | rfl
  · show "IdentityHook" ≠ "MaskingHook"
    decide
  · show "GovernanceHook" ≠ "MaskingHook"
    decide
  · show "AnalyticsHook" ≠ "MaskingHook"
    decide
  · show "AuditHook" ≠ "MaskingHook"
    decide

theorem mem_pipeline {regs : List (ℤ × LifecycleHook (ObservedWorld η σ))}
    {hook : LifecycleHook (ObservedWorld η σ)} :
    hook ∈ (filled regs).build.entries.map (·.2.2) ↔ ∃ reg ∈ regs, reg.2 = hook := by
  simp only [List.mem_map]
  constructor
  · intro h
    obtain ⟨e, he, rfl⟩ := h
    exact ⟨_, List.mem_of_getElem? (mem_entries_filled.mp he), rfl⟩
  · intro h
    obtain ⟨reg, hreg, rfl⟩ := h
    obtain ⟨i, hi⟩ := List.getElem?_of_mem hreg
    exact ⟨(reg.1, i, reg.2), mem_entries_filled.mpr hi, rfl⟩

/-- A masking hook of the pipeline is one that a plugin has registered. -/
theorem masking_mem_iff {c : List (ℤ × LifecycleHook (ObservedWorld η σ)) × List (EventHandler η)}
    {entities : Value} :
    (∃ hook ∈ (filled (s.registrations c)).build.entries.map (·.2.2), MasksExactly entities hook) ↔
      ∃ reg ∈ c.1, MasksExactly entities reg.2 := by
  constructor
  · intro h
    obtain ⟨hook, hhook, hmasks⟩ := h
    obtain ⟨reg, hreg, rfl⟩ := mem_pipeline.mp hhook
    have hname : reg.2.name = "MaskingHook" := by
      obtain ⟨m, -, -, hm⟩ := hmasks
      rw [hm]
      rfl
    unfold registrations at hreg
    rcases List.mem_append.mp hreg with hfirst | hlate
    · rcases List.mem_append.mp hfirst with hearly | hplugin
      · exact absurd hname (s.name_ne_of_core (c := c) (List.mem_append_left _ hearly))
      · exact ⟨reg, hplugin, hmasks⟩
    · exact absurd hname (s.name_ne_of_core (c := c) (List.mem_append_right _ hlate))
  · intro h
    obtain ⟨reg, hreg, hmasks⟩ := h
    refine ⟨reg.2, mem_pipeline.mpr ⟨reg, ?_, rfl⟩, hmasks⟩
    exact List.mem_append_left _ (List.mem_append_right _ hreg)

end Startup

/-- A point at which no hook does anything returns the context. -/
theorem executeHookPoint_of_idle {ω : Type} {point : HookPoint} {hooks : List (LifecycleHook ω)}
    (h : ∀ hook ∈ hooks, ∀ ctx w, hook.method point ctx w = (.ok ctx, w)) (ctx : HookContext)
    (executed : List String) (w : ω) :
    (executeHookPoint point hooks ctx executed w).1.1 = .ok ctx := by
  induction hooks generalizing executed w with
  | nil => rfl
  | cons hook hooks ih =>
    obtain ⟨hfirst, hrest⟩ := List.forall_mem_cons.mp h
    rw [executeHookPoint, hfirst]
    exact ih hrest _ w

/-- A gateway without plugins passes requests and responses unmasked, whatever its masking
section says. -/
theorem unmasked_of_no_plugins {s : Startup η σ} {p : PolicyConfig} (hp : s.policy = some p)
    (hplugins : p.plugins = []) :
    ∃ hooks, s.buildPipeline = .ok (some hooks) ∧
      ∀ point, point = .preMasking ∨ point = .postMasking → ∀ ctx executed w,
        (executeHookPoint point hooks ctx executed w).1.1 = .ok ctx := by
  have hbuild := s.buildPipeline_eq hp
  rw [hplugins, PluginManager.collect_nil] at hbuild
  refine ⟨_, hbuild, fun point hpoint ctx executed w => ?_⟩
  apply executeHookPoint_of_idle
  intro hook hhook ctx w
  obtain ⟨reg, hreg, rfl⟩ := Startup.mem_pipeline.mp hhook
  unfold Startup.registrations Startup.early Startup.late at hreg
  simp only [List.append_nil, List.mem_append, Option.mem_toList, Option.map_eq_some_iff,
    List.mem_singleton] at hreg
  rcases hreg with (⟨identity, -, rfl⟩ | ⟨p, -, rfl⟩) | ⟨analytics, -, rfl⟩ | rfl
  · rcases hpoint with rfl | rfl <;> rfl
  · rcases hpoint with rfl | rfl <;> rfl
  · rcases hpoint with rfl | rfl <;> rfl
  · rcases hpoint with rfl | rfl <;> rfl

theorem not_honoured_of_no_plugins {s : Startup η σ} {p : PolicyConfig} (hp : s.policy = some p)
    (hplugins : p.plugins = []) (henabled : p.masking.presidio.enabled.truthy = true) :
    ¬ MaskingHonoured s p := by
  intro h
  have hbuild := s.buildPipeline_eq hp
  rw [hplugins, PluginManager.collect_nil] at hbuild
  rcases h henabled with ⟨e, he⟩ | ⟨hooks, hhooks, hmasked⟩
  · rw [hbuild] at he
    cases he
  · obtain rfl := Option.some.inj (Except.ok.inj (hbuild.symm.trans hhooks))
    obtain ⟨reg, hreg, -⟩ := s.masking_mem_iff.mp hmasked
    cases hreg

/-- `", ".join(entities)` raises on an element that is no string. -/
def joinable (entities : Value) : Except Exc (List String) := do
  let items ← entities.iter
  items.zipIdx.mapM fun (item, i) =>
    match item with
    | .str s => .ok s
    | v => .error (Value.typeError ("sequence item " ++ toString i ++ ": expected str instance, " ++
        v.typeName ++ " found"))

/-- `PresidioMaskingPlugin`. -/
def presidioMaskingPlugin (engine : Masking.PresidioConfig → MaskingEngine) : EntryPoint η σ :=
  .plugin fun config => do
    let d ←
      match config with
      | .dict d => Except.ok d
      | v => .error (Value.noAttribute v "get")
    let entities := Dict.getD d "entities" (.list [])
    if !entities.truthy then
      throw (Value.valueError
        "presidio-masking plugin requires a non-empty 'entities' list in config")
    let priority ← (Dict.getD d "priority" (.int 75)).toInt
    let registrations := do
      let names ← joinable entities
      let presidio : Masking.PresidioConfig := { enabled := true, entities := names }
      let hook : MaskingHook := { engine := engine presidio, config := presidio }
      return [(priority, hook.toHook)]
    return { name := "presidio-masking", registrations }

/-- A policy whose masking section masks e-mail addresses, with these plugins. -/
def maskingDocument (plugins : List Value) : Dict :=
  [(.str "version", .int 1),
   (.str "default", .str "allow"),
   (.str "masking", .dict [(.str "presidio", .dict
     [(.str "enabled", .bool true), (.str "entities", .list [.str "EMAIL_ADDRESS"])])]),
   (.str "plugins", .list plugins)]

/-- The gateway in which the masking plugin is installed, with an engine that finds nothing. -/
def maskingStartup (p : PolicyConfig) : Startup Unit Unit where
  identity := none
  policy := some p
  analytics := none
  audit := { monotonic := fun _ => 0, now := fun _ => "", reprFloat := fun _ => "0.0" }
  available := [("presidio-masking", presidioMaskingPlugin fun _ text _ _ =>
    .ok { maskedText := text })]

/-- The declaration of the plugin with the entities of the section. -/
def maskingDeclaration : Value :=
  .dict [(.str "name", .str "presidio-masking"),
    (.str "config", .dict [(.str "entities", .list [.str "EMAIL_ADDRESS"])])]

end McpZero.Main

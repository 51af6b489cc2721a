import McpZero.Events.Bus
import McpZero.Governance.Config
import McpZero.Pipeline.Registration
import McpZero.Python.Operators

/-! The plugin manager. It loads the declared plugins one after the other, and each registers its
hooks and its event handlers. -/
namespace McpZero.Plugins
open Python Pipeline Events Governance Lib

variable {η σ : Type}

/-- A configured plugin: the hooks it registers, with their priorities, and its event handlers.
Both steps may raise. -/
structure Plugin (η σ : Type) where
  name : String
  registrations : Except Exc (List (ℤ × LifecycleHook σ))
  eventHandlers : Except Exc (List (EventHandler η)) := .ok []

/-- What becomes of an entry point: its import or its factory raises, its object is no plugin, or
it is a plugin that takes a configuration. -/
inductive EntryPoint (η σ : Type)
  | loadFails (e : Exc)
  | factoryFails (e : Exc)
  | noPlugin (typeName : String)
  | plugin (configure : Value → Except Exc (Plugin η σ))

/-- The entry points that were discovered, by name. -/
abbrev Available (η σ : Type) := List (String × EntryPoint η σ)

def pluginLoadError (message : String) : Exc := .other "PluginLoadError" message

namespace PluginManager

variable (available : Available η σ)

/-- `', '.join(sorted(self._available)) or '(none)'`. -/
def availableText : String :=
  let names := ", ".intercalate ((available.map (·.1)).mergeSort fun a b => decide (a ≤ b))
  if names = "" then "(none)" else names

/-- `self._available.get(ep_name)`, which hashes the name. -/
def find (epName : Value) : Except Exc (Option (EntryPoint η σ)) :=
  match epName with
  | .str s => .ok (available.lookup s)
  | .scalar _ => .ok none
  | v => .error (Value.typeError ("unhashable type: '" ++ v.typeName ++ "'"))

/-- `_load_one`. -/
def loadOne (decl : PluginDeclaration) : Except Exc (Plugin η σ) := do
  let epName := if decl.package.truthy then decl.package else decl.name
  match ← find available epName with
  | none => .error (pluginLoadError ("Plugin '" ++ decl.name.text ++ "' (package '" ++
      epName.text ++ "') not found in 'mcp_zero.plugins' entry points. Available: " ++
      availableText available))
  | some (.loadFails e) => .error (pluginLoadError ("Failed to load entry point for plugin '" ++
      decl.name.text ++ "': " ++ e.message))
  | some (.factoryFails e) => .error (pluginLoadError ("Factory for plugin '" ++ decl.name.text ++
      "' raised: " ++ e.message))
  | some (.noPlugin typeName) => .error (pluginLoadError ("Plugin '" ++ decl.name.text ++
      "' does not satisfy the Plugin protocol (got " ++ typeName ++ ")"))
  | some (.plugin configure) =>
    (configure decl.config).mapError fun e => pluginLoadError ("Plugin '" ++ decl.name.text ++
      "' configure() failed: " ++ e.message)

/-- `plugin.register(registry)`. -/
def register (plugin : Plugin η σ) (registry : HookRegistry σ) : Except Exc (HookRegistry σ) := do
  let registrations ← plugin.registrations
  registrations.foldlM (fun (r : HookRegistry σ) reg => r.register reg.2 reg.1) registry

/-- `load_plugins`. The declared priority is not read. -/
def loadPlugins : List PluginDeclaration → HookRegistry σ → EventBus η →
    Except Exc (HookRegistry σ × EventBus η)
  | [], registry, bus => .ok (registry, bus)
  | decl :: rest, registry, bus => do
    let plugin ← loadOne available decl
    let registry ← register plugin registry
    let handlers ← plugin.eventHandlers
    loadPlugins rest registry { bus with handlers := bus.handlers ++ handlers }

/-- All that the declared plugins register, in order. -/
def collect : List PluginDeclaration →
    Except Exc (List (ℤ × LifecycleHook σ) × List (EventHandler η))
  | [] => .ok ([], [])
  | decl :: rest => do
    let plugin ← loadOne available decl
    let registrations ← plugin.registrations
    let handlers ← plugin.eventHandlers
    let (registrations', handlers') ← collect rest
    return (registrations ++ registrations', handlers ++ handlers')

@[simp] theorem collect_nil : collect available [] = .ok ([], []) := rfl

variable {available}

/-- Loading the plugins appends what they register. -/
theorem loadPlugins_filled (decls : List PluginDeclaration)
    (before : List (ℤ × LifecycleHook σ)) (bus : EventBus η) :
    loadPlugins available decls (filled before) bus =
      (collect available decls).map fun c =>
        (filled (before ++ c.1), { bus with handlers := bus.handlers ++ c.2 }) := by
  induction decls generalizing before bus with
  | nil => simp [loadPlugins, collect, Except.map]
  | cons decl decls ih =>
    unfold loadPlugins collect register
    cases loadOne available decl with
    | error e => rfl
    | ok plugin =>
      cases hregistrations : plugin.registrations with
      | error e => simp [hregistrations, bind, Except.bind, Except.map]
      | ok registrations =>
        cases hhandlers : plugin.eventHandlers with
        | error e =>
          simp [hregistrations, hhandlers, foldlM_register_filled, bind, Except.bind, Except.map]
        | ok handlers =>
          simp only [hregistrations, hhandlers, foldlM_register_filled, bind, Except.bind, ih]
          cases collect available decls with
          | error e => rfl
          | ok c => simp [Except.map, pure, Except.pure, List.append_assoc]

theorem collect_cons_eq_ok {decl : PluginDeclaration} {decls : List PluginDeclaration}
    {c : List (ℤ × LifecycleHook σ) × List (EventHandler η)} :
    collect available (decl :: decls) = .ok c ↔
      ∃ plugin regs handlers rest, loadOne available decl = .ok plugin ∧
        plugin.registrations = .ok regs ∧ plugin.eventHandlers = .ok handlers ∧
        collect available decls = .ok rest ∧ c = (regs ++ rest.1, handlers ++ rest.2) := by
  rw [collect]
  simp only [bind_eq_ok, pure_eq_ok]
  constructor
  · intro h
    obtain ⟨plugin, hplugin, regs, hregs, handlers, hhandlers, rest, hrest, heq⟩ := h
    exact ⟨plugin, regs, handlers, rest, hplugin, hregs, hhandlers, hrest, heq.symm⟩
  · intro h
    obtain ⟨plugin, regs, handlers, rest, hplugin, hregs, hhandlers, hrest, heq⟩ := h
    exact ⟨plugin, hplugin, regs, hregs, handlers, hhandlers, rest, hrest, heq.symm⟩

end PluginManager

end McpZero.Plugins

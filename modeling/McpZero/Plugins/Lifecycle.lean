import McpZero.Lib.Reached
import McpZero.Plugins.Manager

/-! The plugins that the manager knows of while it loads the declared ones, and their teardown. A
plugin is known to the manager from the end of its registration on. -/
namespace McpZero.Plugins
open Python Pipeline Events Governance Lib

variable {η σ : Type}

/-- What happens to the plugin of the declaration at a position. -/
inductive LifecycleEvent
  | configured (position : ℕ)
  | tornDown (position : ℕ) (outcome : Except Exc Unit)

/-- The plugins of the manager, each with the position of its declaration, what they register
with, and what has happened. -/
structure Loading (η σ : Type) where
  plugins : List (ℕ × Plugin η σ) := []
  registry : HookRegistry σ
  eventBus : Option (EventBus η)
  events : List LifecycleEvent := []

namespace Loading

variable (available : Available η σ) (teardown : Plugin η σ → Except Exc Unit)

/-- `plugin.register_event_handlers(event_bus)`, if there is a bus. -/
def registerEventHandlers (plugin : Plugin η σ) :
    Option (EventBus η) → Except Exc (Option (EventBus η))
  | none => .ok none
  | some bus => plugin.eventHandlers.map fun handlers =>
      some { bus with handlers := bus.handlers ++ handlers }

/-- One round of the loop of `load_plugins`. -/
def load (position : ℕ) (decl : PluginDeclaration) (m : Loading η σ) :
    Except Exc Unit × Loading η σ :=
  match PluginManager.loadOne available decl with
  | .error e => (.error e, m)
  | .ok plugin =>
    let m := { m with events := m.events ++ [.configured position] }
    match PluginManager.register plugin m.registry with
    | .error e => (.error e, m)
    | .ok registry =>
      let m := { m with registry := registry }
      match registerEventHandlers plugin m.eventBus with
      | .error e => (.error e, m)
      | .ok bus =>
        (.ok (), { m with eventBus := bus, plugins := m.plugins ++ [(position, plugin)] })

/-- `load_plugins`, from the declaration at a position on. -/
def loadPlugins : ℕ → List PluginDeclaration → Loading η σ → Except Exc Unit × Loading η σ
  | _, [], m => (.ok (), m)
  | position, decl :: rest, m =>
    match load available position decl m with
    | (.error e, m) => (.error e, m)
    | (.ok (), m) => loadPlugins (position + 1) rest m

/-- `teardown_all`. What a plugin raises is logged. -/
def teardownAll (m : Loading η σ) : Loading η σ :=
  { m with events := m.events ++ m.plugins.reverse.map fun x => .tornDown x.1 (teardown x.2) }

end Loading

/-- The plugins whose `configure` has succeeded, in the order in which it did. -/
def configuredIn (events : List LifecycleEvent) : List ℕ :=
  events.filterMap fun
    | .configured position => some position
    | .tornDown _ _ => none

def tornDownIn (events : List LifecycleEvent) : List ℕ :=
  events.filterMap fun
    | .configured _ => none
    | .tornDown position _ => some position

/-- An exception of the class `PluginLoadError`. -/
def IsLoadError (e : Exc) : Prop := ∃ message, e = pluginLoadError message

/-- When all is torn down after the loading of plugins, every configured plugin has been torn down
once, the last one first, and what the loading raised is a `PluginLoadError`. -/
structure LifecycleKept (teardown : Plugin η σ → Except Exc Unit)
    (loaded : Except Exc Unit × Loading η σ) : Prop where
  reversed : tornDownIn (loaded.2.teardownAll teardown).events =
    (configuredIn loaded.2.events).reverse
  once : (tornDownIn (loaded.2.teardownAll teardown).events).Nodup
  surfaces (e : Exc) : loaded.1 = .error e → IsLoadError e

namespace Loading

variable {available : Available η σ} {m : Loading η σ}

/-- The loading of plugins does to the registry and the bus what it does without the books. -/
theorem loadPlugins_result (position : ℕ) (decls : List PluginDeclaration) (bus : EventBus η)
    (hbus : m.eventBus = some bus) :
    (PluginManager.loadPlugins available decls m.registry bus).map (fun x => (x.1, some x.2)) =
      (loadPlugins available position decls m).1.map fun _ =>
        ((loadPlugins available position decls m).2.registry,
          (loadPlugins available position decls m).2.eventBus) := by
  induction decls generalizing position m bus with
  | nil => simp [PluginManager.loadPlugins, loadPlugins, hbus, Except.map]
  | cons decl decls ih =>
    unfold PluginManager.loadPlugins loadPlugins load
    cases PluginManager.loadOne available decl with
    | error e => rfl
    | ok plugin =>
      dsimp only [bind, Except.bind]
      cases PluginManager.register plugin m.registry with
      | error e => rfl
      | ok registry =>
        dsimp only
        rw [hbus]
        unfold registerEventHandlers
        cases plugin.eventHandlers with
        | error e => rfl
        | ok handlers =>
          exact ih (m := { m with
            registry := registry
            eventBus := some { bus with handlers := bus.handlers ++ handlers }
            events := m.events ++ [.configured position]
            plugins := m.plugins ++ [(position, plugin)] }) (position + 1) _ rfl

/-- `package or name`. -/
def epName (decl : PluginDeclaration) : Value :=
  if decl.package.truthy then decl.package else decl.name

/-- The name of the entry point of a declaration can be looked up. -/
def Findable (available : Available η σ) (decl : PluginDeclaration) : Prop :=
  ∃ found, PluginManager.find available (epName decl) = .ok found

/-- The entry point of a declaration is a plugin that takes its configuration. -/
def Configures (available : Available η σ) (decl : PluginDeclaration) (plugin : Plugin η σ) :
    Prop :=
  ∃ configure, PluginManager.find available (epName decl) = .ok (some (.plugin configure)) ∧
    configure decl.config = .ok plugin

/-- The plugin registers its hooks, and its event handlers where there is a bus, and does not
raise. -/
structure Registers (frozen bus : Bool) (plugin : Plugin η σ) : Prop where
  hooks : ∃ registrations, plugin.registrations = .ok registrations ∧
    (frozen = true → registrations = [])
  eventHandlers : bus = true → ∃ handlers, plugin.eventHandlers = .ok handlers

theorem loadOne_eq_ok {decl : PluginDeclaration} {plugin : Plugin η σ} :
    PluginManager.loadOne available decl = .ok plugin ↔ Configures available decl plugin := by
  unfold PluginManager.loadOne Configures epName
  rw [bind_eq_ok]
  constructor
  · rintro ⟨found, hfind, hplugin⟩
    cases found with
    | none => cases hplugin
    | some entry =>
      cases entry with
      | plugin configure => exact ⟨configure, hfind, map_error_eq_ok.mp hplugin⟩
      | _ => cases hplugin
  · rintro ⟨configure, hfind, hconfigure⟩
    exact ⟨_, hfind, map_error_eq_ok.mpr hconfigure⟩

theorem foldlM_register_frozen {registrations : List (ℤ × LifecycleHook σ)}
    {registry registry' : HookRegistry σ}
    (h : registrations.foldlM (fun (r : HookRegistry σ) reg => r.register reg.2 reg.1) registry =
      .ok registry') : registry'.frozen = registry.frozen := by
  induction registrations generalizing registry with
  | nil =>
    cases h
    rfl
  | cons reg registrations ih =>
    rw [List.foldlM_cons, bind_eq_ok] at h
    obtain ⟨next, hnext, hrest⟩ := h
    rw [ih hrest]
    unfold HookRegistry.register at hnext
    split at hnext
    · cases hnext
    · cases hnext
      rfl

theorem register_frozen {plugin : Plugin η σ} {registry registry' : HookRegistry σ}
    (h : PluginManager.register plugin registry = .ok registry') :
    registry'.frozen = registry.frozen := by
  obtain ⟨registrations, -, hrest⟩ := bind_eq_ok.mp h
  exact foldlM_register_frozen hrest

theorem exists_register_iff {plugin : Plugin η σ} {registry : HookRegistry σ} :
    (∃ registry', PluginManager.register plugin registry = .ok registry') ↔
      ∃ registrations, plugin.registrations = .ok registrations ∧
        (registry.frozen = true → registrations = []) := by
  unfold PluginManager.register
  cases plugin.registrations with
  | error e => simp [bind, Except.bind]
  | ok registrations =>
    simp only [bind, Except.bind, Except.ok.injEq, exists_eq_left']
    cases hfrozen : registry.frozen with
    | false => simp [foldlM_register registrations hfrozen]
    | true =>
      cases registrations with
      | nil => simp [pure, Except.pure]
      | cons reg registrations =>
        simp [List.foldlM_cons, HookRegistry.register, hfrozen, bind, Except.bind]

theorem exists_registerEventHandlers_iff {plugin : Plugin η σ} {bus : Option (EventBus η)} :
    (∃ bus', registerEventHandlers plugin bus = .ok bus') ↔
      (bus.isSome = true → ∃ handlers, plugin.eventHandlers = .ok handlers) := by
  cases bus with
  | none => simp [registerEventHandlers]
  | some bus => cases h : plugin.eventHandlers <;> simp [registerEventHandlers, h, Except.map]

theorem registerEventHandlers_isSome {plugin : Plugin η σ} {bus bus' : Option (EventBus η)}
    (h : registerEventHandlers plugin bus = .ok bus') : bus'.isSome = bus.isSome := by
  cases bus with
  | none =>
    cases h
    rfl
  | some bus =>
    unfold registerEventHandlers at h
    cases hhandlers : plugin.eventHandlers with
    | error e =>
      rw [hhandlers] at h
      cases h
    | ok handlers =>
      rw [hhandlers] at h
      cases h
      rfl

/-- How a round of the loop can end. -/
inductive Round (available : Available η σ) (position : ℕ) (decl : PluginDeclaration)
    (m : Loading η σ) : Except Exc Unit × Loading η σ → Prop
  | notConfigured {e : Exc} : PluginManager.loadOne available decl = .error e →
      Round available position decl m (.error e, m)
  | notRegistered {e : Exc} {plugin : Plugin η σ} {registry : HookRegistry σ} :
      PluginManager.loadOne available decl = .ok plugin →
      ¬ Registers m.registry.frozen m.eventBus.isSome plugin →
      Round available position decl m (.error e,
        { m with registry := registry, events := m.events ++ [.configured position] })
  | loaded {plugin : Plugin η σ} {registry : HookRegistry σ} {bus : Option (EventBus η)} :
      PluginManager.loadOne available decl = .ok plugin →
      Registers m.registry.frozen m.eventBus.isSome plugin →
      registry.frozen = m.registry.frozen → bus.isSome = m.eventBus.isSome →
      Round available position decl m (.ok (),
        { plugins := m.plugins ++ [(position, plugin)], registry := registry, eventBus := bus
          events := m.events ++ [.configured position] })

theorem load_round (available : Available η σ) (position : ℕ) (decl : PluginDeclaration)
    (m : Loading η σ) : Round available position decl m (load available position decl m) := by
  unfold load
  cases hload : PluginManager.loadOne available decl with
  | error e => exact .notConfigured hload
  | ok plugin =>
    dsimp only
    cases hregister : PluginManager.register plugin m.registry with
    | error e =>
      refine .notRegistered hload fun hregisters => ?_
      obtain ⟨registry, hok⟩ := exists_register_iff.mpr hregisters.hooks
      rw [hregister] at hok
      cases hok
    | ok registry =>
      dsimp only
      cases hhandlers : registerEventHandlers plugin m.eventBus with
      | error e =>
        refine .notRegistered hload fun hregisters => ?_
        obtain ⟨bus, hok⟩ := exists_registerEventHandlers_iff.mpr hregisters.eventHandlers
        rw [hhandlers] at hok
        cases hok
      | ok bus =>
        exact .loaded hload
          ⟨exists_register_iff.mp ⟨registry, hregister⟩,
            exists_registerEventHandlers_iff.mp ⟨bus, hhandlers⟩⟩
          (register_frozen hregister) (registerEventHandlers_isSome hhandlers)

/-- The manager knows every plugin that is configured. -/
def AllKnown (m : Loading η σ) : Prop := configuredIn m.events = m.plugins.map (·.1)

/-- The books before the declaration at a position is loaded. -/
structure Orderly (position : ℕ) (m : Loading η σ) : Prop where
  untouched : tornDownIn m.events = []
  below (i : ℕ) : i ∈ m.plugins.map (·.1) → i < position
  once : (m.plugins.map (·.1)).Nodup

/-- What loading needs of a declaration, if it gets there. -/
structure Loads (available : Available η σ) (frozen bus : Bool) (decl : PluginDeclaration) :
    Prop where
  findable : Findable available decl
  registers (plugin : Plugin η σ) : Configures available decl plugin → Registers frozen bus plugin

theorem isLoadError_of_loadOne {decl : PluginDeclaration} {e : Exc}
    (h : PluginManager.loadOne available decl = .error e) :
    IsLoadError e ↔ Findable available decl := by
  unfold PluginManager.loadOne at h
  unfold Findable
  dsimp only at h
  change (PluginManager.find available (epName decl) >>= _) = _ at h
  cases hfind : PluginManager.find available (epName decl) with
  | error e' =>
    rw [hfind] at h
    cases h
    refine iff_of_false ?_ (by simp)
    rintro ⟨message, rfl⟩
    unfold PluginManager.find at hfind
    split at hfind <;> simp [pluginLoadError, Value.typeError] at hfind
  | ok found =>
    rw [hfind] at h
    refine iff_of_true ?_ ⟨found, rfl⟩
    cases found with
    | none =>
      cases h
      exact ⟨_, rfl⟩
    | some entry =>
      cases entry with
      | plugin configure =>
        dsimp only [bind, Except.bind] at h
        cases hconfigure : configure decl.config with
        | ok plugin =>
          rw [hconfigure] at h
          cases h
        | error e' =>
          rw [hconfigure] at h
          cases h
          exact ⟨_, rfl⟩
      | _ =>
        cases h
        exact ⟨_, rfl⟩

theorem tornDownIn_configured {events : List LifecycleEvent} (position : ℕ) :
    tornDownIn (events ++ [.configured position]) = tornDownIn events := by
  simp [tornDownIn]

theorem configuredIn_configured {events : List LifecycleEvent} (position : ℕ) :
    configuredIn (events ++ [.configured position]) = configuredIn events ++ [position] := by
  simp [configuredIn]

theorem Orderly.load {position : ℕ} (h : m.Orderly position) (decl : PluginDeclaration) :
    (load available position decl m).2.Orderly (position + 1) := by
  have hbelow (i : ℕ) (hi : i ∈ m.plugins.map (·.1)) : i < position + 1 :=
    Nat.lt_succ_of_lt (h.below i hi)
  have huntouched : tornDownIn (m.events ++ [.configured position]) = [] :=
    (tornDownIn_configured position).trans h.untouched
  have hround := load_round available position decl m
  generalize Loading.load available position decl m = r at hround
  cases hround with
  | notConfigured => exact ⟨h.untouched, hbelow, h.once⟩
  | notRegistered => exact ⟨huntouched, hbelow, h.once⟩
  | loaded =>
    refine ⟨huntouched, ?_, ?_⟩
    · intro i hi
      rw [List.map_append, List.mem_append] at hi
      rcases hi with hi | hi
      · exact hbelow i hi
      · rw [List.mem_singleton.mp hi]
        exact Nat.lt_succ_self position
    · dsimp only
      rw [List.map_append, List.nodup_append]
      refine ⟨h.once, List.nodup_singleton _, ?_⟩
      intro i hi j hj
      rw [List.mem_singleton.mp hj]
      exact Nat.ne_of_lt (h.below i hi)

theorem Orderly.loadPlugins {position : ℕ} (h : m.Orderly position)
    (decls : List PluginDeclaration) :
    ∃ last, (loadPlugins available position decls m).2.Orderly last := by
  induction decls generalizing position m with
  | nil => exact ⟨position, h⟩
  | cons decl decls ih =>
    have hload : (Loading.load available position decl m).2.Orderly (position + 1) := h.load decl
    unfold Loading.loadPlugins
    rcases hround : Loading.load available position decl m with ⟨_ | _, m'⟩
    · rw [hround] at hload
      exact ⟨position + 1, hload⟩
    · rw [hround] at hload
      exact ih hload

/-- Loading stays in order exactly when every declaration that it gets to is loaded or refused
before the plugin is configured. -/
theorem loadPlugins_allKnown_iff {position : ℕ} (h : m.AllKnown) (decls : List PluginDeclaration) :
    ((loadPlugins available position decls m).2.AllKnown ∧
        ∀ e, (loadPlugins available position decls m).1 = .error e → IsLoadError e) ↔
      Reached (fun decl => ∃ plugin, Configures available decl plugin ∧
          Registers m.registry.frozen m.eventBus.isSome plugin)
        (Loads available m.registry.frozen m.eventBus.isSome) decls := by
  induction decls generalizing position m with
  | nil => exact iff_of_true ⟨h, nofun⟩ reached_nil
  | cons decl decls ih =>
    have hround := load_round available position decl m
    unfold loadPlugins
    rw [reached_cons]
    generalize load available position decl m = r at hround
    cases hround with
    | @notConfigured e hload =>
      have hnone (plugin : Plugin η σ) : ¬ Configures available decl plugin := by
        intro hok
        rw [← loadOne_eq_ok, hload] at hok
        cases hok
      have hrest : (Loads available m.registry.frozen m.eventBus.isSome decl) ↔
          Findable available decl :=
        ⟨fun hloads => hloads.findable, fun hfind => ⟨hfind, fun plugin hok =>
          absurd hok (hnone plugin)⟩⟩
      rw [hrest, ← isLoadError_of_loadOne hload]
      constructor
      · intro hkept
        exact ⟨hkept.2 e rfl, fun ⟨plugin, hok, _⟩ => absurd hok (hnone plugin)⟩
      · rintro ⟨herror, -⟩
        refine ⟨h, fun e' he' => ?_⟩
        cases he'
        exact herror
    | @notRegistered e plugin registry hload hnot =>
      refine iff_of_false ?_ fun hloads => hnot (hloads.1.registers plugin (loadOne_eq_ok.mp hload))
      rintro ⟨hknown, -⟩
      have hlength := congrArg List.length ((configuredIn_configured position).symm.trans hknown)
      rw [h, List.length_append, List.length_singleton] at hlength
      exact absurd hlength (Nat.succ_ne_self _)
    | @loaded plugin registry bus hload hregisters hfrozen hbus =>
      have hknown : AllKnown ⟨m.plugins ++ [(position, plugin)], registry, bus,
          m.events ++ [.configured position]⟩ := by
        unfold AllKnown
        rw [configuredIn_configured, h, List.map_append]
        rfl
      have hloads : Loads available m.registry.frozen m.eventBus.isSome decl := by
        obtain ⟨configure, hfind, -⟩ := loadOne_eq_ok.mp hload
        refine ⟨⟨_, hfind⟩, fun plugin' hok => ?_⟩
        rw [← loadOne_eq_ok, hload] at hok
        cases hok
        exact hregisters
      have hrest := @ih _ (position + 1) hknown
      dsimp only at hrest ⊢
      rw [hrest, hfrozen, hbus]
      constructor
      · intro hreached
        exact ⟨hloads, fun _ => hreached⟩
      · rintro ⟨-, hreached⟩
        exact hreached ⟨plugin, loadOne_eq_ok.mp hload, hregisters⟩

theorem teardownAll_events (teardown : Plugin η σ → Except Exc Unit) (m : Loading η σ) :
    tornDownIn (m.teardownAll teardown).events =
      tornDownIn m.events ++ (m.plugins.map (·.1)).reverse := by
  unfold teardownAll tornDownIn
  rw [List.filterMap_append, List.filterMap_map, ← List.map_reverse, ← List.filterMap_eq_map]
  rfl

end Loading

/-- The lifecycle is kept exactly when every declaration that loading gets to names its entry point
by a text or another hashable value, and its plugin, if it is configured, registers its hooks and
its event handlers without an exception. -/
theorem lifecycleKept_iff (available : Available η σ) (teardown : Plugin η σ → Except Exc Unit)
    (registry : HookRegistry σ) (eventBus : Option (EventBus η)) (decls : List PluginDeclaration) :
    LifecycleKept teardown (Loading.loadPlugins available 0 decls { registry, eventBus }) ↔
      Reached (fun decl => ∃ plugin, Loading.Configures available decl plugin ∧
          Loading.Registers registry.frozen eventBus.isSome plugin)
        (Loading.Loads available registry.frozen eventBus.isSome) decls := by
  let start : Loading η σ := { registry, eventBus }
  have hknown : start.AllKnown := rfl
  have horderly : start.Orderly 0 := ⟨rfl, nofun, List.nodup_nil⟩
  obtain ⟨last, hafter⟩ : ∃ last, (Loading.loadPlugins available 0 decls start).2.Orderly last :=
    horderly.loadPlugins decls
  have htornDown := Loading.teardownAll_events teardown
    (Loading.loadPlugins available 0 decls start).2
  rw [hafter.untouched, List.nil_append] at htornDown
  rw [← @Loading.loadPlugins_allKnown_iff _ _ available start 0 hknown decls]
  constructor
  · intro hkept
    refine ⟨?_, hkept.surfaces⟩
    exact (List.reverse_injective (htornDown.symm.trans hkept.reversed)).symm
  · rintro ⟨hall, hsurfaces⟩
    refine ⟨?_, ?_, hsurfaces⟩
    · rw [htornDown, hall]
    · rw [htornDown]
      exact List.nodup_reverse.mpr hafter.once

/-- A plugin that opens its connections when it is configured and cannot be registered. -/
def unregistrable : Plugin Unit Unit where
  name := "pool"
  registrations := .error (.other "RuntimeError" "no backend")

def poolDeclaration : PluginDeclaration where
  name := .str "pool"
  package := .str "pool"
  config := .dict []
  priority := .none

def poolLoaded : Except Exc Unit × Loading Unit Unit :=
  Loading.loadPlugins [("pool", .plugin fun _ => .ok unregistrable)] 0 [poolDeclaration]
    { registry := {}, eventBus := some {} }

/-- The plugin is configured and not torn down, and its own exception ends the loading. -/
theorem poolLoaded_not_lifecycleKept :
    poolLoaded.1 = .error (.other "RuntimeError" "no backend") ∧
      (poolLoaded.2.teardownAll fun _ => .ok ()).events = [.configured 0] ∧
      ¬ LifecycleKept (fun _ => .ok ()) poolLoaded := by
  refine ⟨rfl, rfl, fun hkept => ?_⟩
  obtain ⟨message, hmessage⟩ := hkept.surfaces (.other "RuntimeError" "no backend") rfl
  simp [pluginLoadError] at hmessage

end McpZero.Plugins

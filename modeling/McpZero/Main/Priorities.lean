import McpZero.Governance.Loader
import McpZero.Main.Startup

/-! Which priorities the built pipeline runs the hooks of the plugins at. Every hook is registered
at the priority that its plugin chooses, so a declared priority holds only where it is that one. -/
namespace McpZero.Main
open Python Lib Pipeline Governance Plugins Audit Events

/-- The hooks run at these priorities exactly when they were registered at them. -/
theorem honoured_filled_iff {ω : Type} {regs : List (ℤ × LifecycleHook ω)}
    {wanted : List (Option ℚ × LifecycleHook ω)} :
    Honoured (filled regs).build.entries wanted ↔
      wanted = regs.map fun reg => (some (reg.1 : ℚ), reg.2) := by
  have hlength : (filled regs).build.entries.length = regs.length := by
    simp [HookRegistry.build, filled]
  constructor
  · intro h
    have hsame : wanted.length = regs.length := h.length.symm.trans hlength
    apply List.ext_getElem?
    intro i
    rw [List.getElem?_map]
    cases hw : wanted[i]? with
    | none =>
      have hnone : regs[i]? = none := by
        rw [List.getElem?_eq_none_iff] at hw ⊢
        omega
      rw [hnone]
      rfl
    | some w =>
      obtain ⟨e, he, hcounter, hpriority⟩ := h.runs i w hw
      have hreg := mem_entries_filled.mp he
      rw [hcounter] at hreg
      rw [hreg, Option.map_some, ← hpriority]
  · intro h
    subst h
    refine ⟨fun i w hw => ?_, entries_filled_ordered regs, by rw [hlength, List.length_map]⟩
    rw [List.getElem?_map, Option.map_eq_some_iff] at hw
    obtain ⟨reg, hreg, rfl⟩ := hw
    exact ⟨(reg.1, i, reg.2), mem_entries_filled.mpr hreg, rfl, rfl⟩

theorem collect_of_loadsAs {η σ : Type} {available : Available η σ}
    {decls : List PluginDeclaration} {plugins : List (OneHook η σ)}
    (h : List.Forall₂ (LoadsAs available) decls plugins) :
    PluginManager.collect available decls =
      .ok (plugins.map fun q => (q.priority, q.hook), plugins.flatMap (·.handlers)) := by
  induction h with
  | nil => rfl
  | cons hfirst _ ih =>
    obtain ⟨plugin, hplugin, hregs, hhandlers⟩ := hfirst
    exact PluginManager.collect_cons_eq_ok.mpr ⟨plugin, _, _, _, hplugin, hregs, hhandlers, ih, rfl⟩

theorem zipWith_eq_map_iff {α β γ : Type} {f : α → β → γ} {g : β → γ} {xs : List α} {ys : List β}
    (h : xs.length = ys.length) :
    List.zipWith f xs ys = ys.map g ↔ List.Forall₂ (fun x y => f x y = g y) xs ys := by
  induction xs generalizing ys with
  | nil =>
    cases ys with
    | nil => simp
    | cons y ys => cases h
  | cons x xs ih =>
    cases ys with
    | nil => cases h
    | cons y ys => simp [ih (Nat.succ.inj h)]

/-- No priority is declared, or the one that the plugin chooses. -/
def OwnPriority (declared : Value) (own : ℤ) : Prop :=
  declared = .none ∨ ∃ a, declared = .scalar a ∧ a.number? = some (.finite (own : ℚ))

theorem effectivePriority_eq_own {declared : Value} {own : ℤ} :
    effectivePriority declared own = some (own : ℚ) ↔ OwnPriority declared own := by
  unfold OwnPriority
  cases declared with
  | list items => simp [effectivePriority]
  | group kind items => simp [effectivePriority]
  | dict entries => simp [effectivePriority]
  | scalar a =>
    cases a with
    | none => simp [effectivePriority]
    | float x => cases hx : x.value <;> simp [effectivePriority, Scalar.number?, hx]
    | _ => simp [effectivePriority, Scalar.number?]

namespace Startup

variable {η σ : Type} (s : Startup η σ)

/-- The registered hooks with the priorities the configuration asks for. -/
def wanted (decls : List PluginDeclaration) (plugins : List (OneHook η (ObservedWorld η σ))) :
    List (Option ℚ × LifecycleHook (ObservedWorld η σ)) :=
  (s.early.map fun reg => (some (reg.1 : ℚ), reg.2)) ++
    List.zipWith (fun decl q => (effectivePriority decl.priority q.priority, q.hook)) decls plugins ++
      (s.late (plugins.flatMap (·.handlers))).map fun reg => (some (reg.1 : ℚ), reg.2)

/-- The pipeline is built, and its hooks run at the priorities the configuration asks for. -/
def HonoursPriorities (decls : List PluginDeclaration)
    (plugins : List (OneHook η (ObservedWorld η σ))) : Prop :=
  ∃ r, s.registry = .ok r ∧
    s.buildPipeline = .ok (some (r.build.entries.map (·.2.2))) ∧
      Honoured r.build.entries (s.wanted decls plugins)

theorem honoursPriorities_iff_effective {p : PolicyConfig} (hp : s.policy = some p)
    {plugins : List (OneHook η (ObservedWorld η σ))}
    (hload : List.Forall₂ (LoadsAs s.available) p.plugins plugins) :
    s.HonoursPriorities p.plugins plugins ↔
      List.Forall₂ (fun decl q => effectivePriority decl.priority q.priority = some (q.priority : ℚ))
        p.plugins plugins := by
  have hcollect := collect_of_loadsAs hload
  have hregistry : s.registry = .ok (filled (s.registrations
      (plugins.map fun q => (q.priority, q.hook), plugins.flatMap (·.handlers)))) := by
    rw [registry_eq, declarations, hp, Option.elim_some, hcollect]
    rfl
  have hbuild := s.buildPipeline_eq hp
  rw [hcollect] at hbuild
  have hwanted : s.wanted p.plugins plugins = (s.registrations
      (plugins.map fun q => (q.priority, q.hook), plugins.flatMap (·.handlers))).map
        (fun reg => (some (reg.1 : ℚ), reg.2)) ↔
      List.Forall₂ (fun decl q => effectivePriority decl.priority q.priority = some (q.priority : ℚ))
        p.plugins plugins := by
    unfold wanted registrations
    rw [List.map_append, List.map_append, List.append_left_inj, List.append_right_inj,
      List.map_map, zipWith_eq_map_iff hload.length_eq]
    simp
  rw [← hwanted, ← honoured_filled_iff]
  constructor
  · intro h
    obtain ⟨r, hr, -, hhonoured⟩ := h
    obtain rfl := Except.ok.inj (hregistry.symm.trans hr)
    exact hhonoured
  · intro h
    exact ⟨_, hregistry, hbuild, h⟩

/-- Declared priorities are honoured exactly when each is the one that the plugin chooses. -/
theorem honoursPriorities_iff {p : PolicyConfig} (hp : s.policy = some p)
    {plugins : List (OneHook η (ObservedWorld η σ))}
    (hload : List.Forall₂ (LoadsAs s.available) p.plugins plugins) :
    s.HonoursPriorities p.plugins plugins ↔
      List.Forall₂ (fun decl q => OwnPriority decl.priority q.priority) p.plugins plugins := by
  rw [s.honoursPriorities_iff_effective hp hload]
  simp only [effectivePriority_eq_own]

end Startup

/-- A policy without rules that declares one plugin. -/
def pluginDocument (priority : Value) : Dict :=
  [(.str "version", .int 1),
   (.str "plugins", .list [.dict [(.str "name", .str "filter"), (.str "priority", priority)]])]

/-- A plugin that registers one hook behind the governance. -/
def filterPlugin : OneHook Unit (ObservedWorld Unit Unit) where
  priority := 75
  hook := { name := "FilterHook" }

def filterStartup (p : PolicyConfig) : Startup Unit Unit where
  identity := none
  policy := some p
  analytics := none
  audit := { monotonic := fun _ => 0, now := fun _ => "", reprFloat := fun _ => "0.0" }
  available := [("filter", .plugin fun _ => .ok
    { name := "filter", registrations := .ok [(filterPlugin.priority, filterPlugin.hook)] })]

theorem filterStartup_loads {p : PolicyConfig} {decl : PluginDeclaration} (hp : p.plugins = [decl])
    (hpackage : decl.package = .str "filter") :
    List.Forall₂ (LoadsAs (filterStartup p).available) p.plugins [filterPlugin] := by
  rw [hp]
  refine .cons ⟨{ name := "filter", registrations := .ok [(75, filterPlugin.hook)] }, ?_, rfl, rfl⟩
    .nil
  unfold PluginManager.loadOne
  rw [hpackage]
  rfl

/-- Registered by increasing priority, the hooks are not moved. -/
theorem filterStartup_pipeline {p : PolicyConfig} {decl : PluginDeclaration}
    (hp : p.plugins = [decl]) (hpackage : decl.package = .str "filter") :
    (filterStartup p).buildPipeline = .ok (some
      [((filterStartup p).governance p).toHook, filterPlugin.hook, (filterStartup p).auditHook {}])
    := by
  have hcollect := collect_of_loadsAs (filterStartup_loads hp hpackage)
  rw [(filterStartup p).buildPipeline_eq rfl, hcollect]
  have hsorted : ∀ es : List (ℤ × ℕ × LifecycleHook (ObservedWorld Unit Unit)),
      es.Pairwise (fun a b => HookRegistry.entryLE a b = true) →
      es.mergeSort HookRegistry.entryLE = es := fun es h => List.mergeSort_of_pairwise h
  simp [filled, HookRegistry.build, Startup.registrations, Startup.early, Startup.late,
    filterStartup, filterPlugin, Except.map, hsorted, HookRegistry.entryLE]

/-- The hook is declared to run before the governance and runs after it. -/
theorem pluginDocument_not_honoured :
    ∃ p, Loader.loadPolicy (.dict (pluginDocument (.int 20))) = .ok p ∧
      List.Forall₂ (LoadsAs (filterStartup p).available) p.plugins [filterPlugin] ∧
      (filterStartup p).buildPipeline = .ok (some
        [((filterStartup p).governance p).toHook, filterPlugin.hook,
          (filterStartup p).auditHook {}]) ∧
      ¬ (filterStartup p).HonoursPriorities p.plugins [filterPlugin] := by
  refine ⟨_, rfl, filterStartup_loads rfl rfl, filterStartup_pipeline rfl rfl, ?_⟩
  intro h
  have heffective := (Startup.honoursPriorities_iff_effective _ rfl (filterStartup_loads rfl rfl)).mp h
  have hfirst := (List.forall₂_cons.mp heffective).1
  have htwenty : some (20 : ℚ) = some 75 := hfirst
  exact absurd htwenty (by decide)

theorem pluginDocument_honoured :
    ∃ p, Loader.loadPolicy (.dict (pluginDocument (.int 75))) = .ok p ∧
      (filterStartup p).HonoursPriorities p.plugins [filterPlugin] := by
  refine ⟨_, rfl, ?_⟩
  apply (Startup.honoursPriorities_iff _ rfl (filterStartup_loads rfl rfl)).mpr
  exact .cons (.inr ⟨.int 75, rfl, rfl⟩) .nil

end McpZero.Main

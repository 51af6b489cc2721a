import McpZero.Lib.Except
import McpZero.Pipeline.Hooks

/-! A pipeline from hooks that are registered one after the other: they run in the order of their
priorities, and those of one priority in the order of registration. -/
namespace McpZero.Pipeline

variable {σ : Type}

/-- The order of priorities. -/
def runsBefore {α : Type} (a b : ℤ × α) : Bool := a.1 ≤ b.1

/-- The hooks of `Pipeline(registry.build())` for a registry that is filled in this order. -/
def builtFrom (registrations : List (ℤ × LifecycleHook σ)) :
    Except Exc (List (LifecycleHook σ)) := do
  let r ← registrations.foldlM (fun (r : HookRegistry σ) reg => r.register reg.2 reg.1) {}
  r.build.getHooks

/-- The registry after these registrations. -/
def filled (registrations : List (ℤ × LifecycleHook σ)) : HookRegistry σ where
  entries := registrations.zipIdx.map fun x => (x.1.1, x.2, x.1.2)
  insertCounter := registrations.length

theorem runsBefore_trans {α : Type} (a b c : ℤ × α) (hab : runsBefore a b = true)
    (hbc : runsBefore b c = true) : runsBefore a c = true := by
  simp only [runsBefore, decide_eq_true_eq] at *
  omega

theorem runsBefore_total {α : Type} (a b : ℤ × α) : (runsBefore a b || runsBefore b a) = true := by
  simp only [runsBefore, Bool.or_eq_true, decide_eq_true_eq]
  omega

/-- Each registration takes the next value of the counter. -/
theorem foldlM_register (registrations : List (ℤ × LifecycleHook σ)) {r : HookRegistry σ}
    (hopen : r.frozen = false) :
    registrations.foldlM (fun (r : HookRegistry σ) reg => r.register reg.2 reg.1) r =
      .ok { r with
        entries := r.entries ++ (registrations.zipIdx r.insertCounter).map fun x =>
          (x.1.1, x.2, x.1.2)
        insertCounter := r.insertCounter + registrations.length } := by
  induction registrations generalizing r with
  | nil => simp [pure, Except.pure]
  | cons reg registrations ih =>
    let next : HookRegistry σ := { r with
      entries := r.entries ++ [(reg.1, r.insertCounter, reg.2)]
      insertCounter := r.insertCounter + 1 }
    have hregister : r.register reg.2 reg.1 = .ok next := by
      simp [HookRegistry.register, hopen, next]
    have hnext : next.frozen = false := hopen
    rw [List.foldlM_cons, hregister]
    refine (ih hnext).trans ?_
    simp only [next, List.zipIdx_cons, List.map_cons, List.append_assoc, List.singleton_append,
      List.length_cons]
    rw [Nat.add_assoc, Nat.add_comm 1]

theorem foldlM_register_filled (before registrations : List (ℤ × LifecycleHook σ)) :
    registrations.foldlM (fun (r : HookRegistry σ) reg => r.register reg.2 reg.1) (filled before) =
      .ok (filled (before ++ registrations)) := by
  have hopen : (filled before).frozen = false := rfl
  rw [foldlM_register registrations hopen]
  simp only [filled, List.zipIdx_append, List.map_append, List.length_append, Nat.zero_add]

theorem register_filled (before : List (ℤ × LifecycleHook σ)) (hook : LifecycleHook σ)
    (priority : ℤ) :
    (filled before).register hook priority = .ok (filled (before ++ [(priority, hook)])) := by
  have hfold := foldlM_register_filled before [(priority, hook)]
  simpa only [List.foldlM_cons, List.foldlM_nil, bind_pure] using hfold

theorem entryLE_eq (a b : (ℤ × LifecycleHook σ) × ℕ) :
    List.zipIdxLE runsBefore a b = HookRegistry.entryLE (a.1.1, a.2, a.1.2) (b.1.1, b.2, b.1.2) := by
  unfold List.zipIdxLE runsBefore HookRegistry.entryLE
  rcases lt_trichotomy a.1.1 b.1.1 with h | h | h
  · simp [h, h.le, not_le.mpr h]
  · simp [h]
  · simp [not_le.mpr h, h.ne', not_lt.mpr h.le]

/-- The build is the stable sort by priority. -/
theorem builtFrom_eq (registrations : List (ℤ × LifecycleHook σ)) :
    builtFrom registrations = .ok ((registrations.mergeSort runsBefore).map (·.2)) := by
  have hsort : (registrations.zipIdx.map fun x => (x.1.1, x.2, x.1.2)).mergeSort
      HookRegistry.entryLE = (registrations.zipIdx.mergeSort (List.zipIdxLE runsBefore)).map
        fun x => (x.1.1, x.2, x.1.2) :=
    (List.map_mergeSort fun a _ b _ => entryLE_eq a b).symm
  have hopen : ({} : HookRegistry σ).frozen = false := rfl
  have hfilled := foldlM_register registrations hopen
  unfold builtFrom
  rw [hfilled]
  simp only [bind, Except.bind, HookRegistry.build, HookRegistry.getHooks, if_true,
    List.nil_append, hsort, List.map_map]
  rw [← registrations.mergeSort_zipIdx, List.map_map]
  rfl

theorem entryLE_trans (a b c : ℤ × ℕ × LifecycleHook σ) (hab : HookRegistry.entryLE a b = true)
    (hbc : HookRegistry.entryLE b c = true) : HookRegistry.entryLE a c = true := by
  simp only [HookRegistry.entryLE, Bool.or_eq_true, Bool.and_eq_true, decide_eq_true_eq,
    beq_iff_eq] at *
  omega

theorem entryLE_total (a b : ℤ × ℕ × LifecycleHook σ) :
    (HookRegistry.entryLE a b || HookRegistry.entryLE b a) = true := by
  simp only [HookRegistry.entryLE, Bool.or_eq_true, Bool.and_eq_true, decide_eq_true_eq,
    beq_iff_eq]
  omega

theorem mem_entries_filled {registrations : List (ℤ × LifecycleHook σ)}
    {e : ℤ × ℕ × LifecycleHook σ} :
    e ∈ (filled registrations).build.entries ↔ registrations[e.2.1]? = some (e.1, e.2.2) := by
  obtain ⟨priority, i, hook⟩ := e
  unfold HookRegistry.build filled
  simp only [List.mem_mergeSort, List.mem_map, Prod.mk.injEq, Prod.exists]
  constructor
  · intro h
    obtain ⟨p, k, j, hmem, rfl, rfl, rfl⟩ := h
    exact List.mem_zipIdx_iff_getElem?.mp hmem
  · intro h
    exact ⟨priority, hook, i, List.mem_zipIdx_iff_getElem?.mpr h, rfl, rfl, rfl⟩

/-- After the build the entries stand in the order of their priorities, those of one priority in
the order of registration. -/
theorem entries_filled_ordered (registrations : List (ℤ × LifecycleHook σ)) :
    (filled registrations).build.entries.Pairwise
      fun a b => a.1 < b.1 ∨ (a.1 = b.1 ∧ a.2.1 < b.2.1) := by
  have hsorted := List.pairwise_mergeSort entryLE_trans entryLE_total
    (filled registrations).entries
  have hcounters : ((filled registrations).entries.mergeSort HookRegistry.entryLE).Pairwise
      fun a b => a.2.1 ≠ b.2.1 := by
    have hperm := List.mergeSort_perm (filled registrations).entries HookRegistry.entryLE
    apply (hperm.pairwise_iff fun h => h.symm).mpr
    unfold filled
    simp only [List.pairwise_map]
    have hindices : (registrations.zipIdx.map Prod.snd).Nodup := by
      rw [List.zipIdx_map_snd]
      exact List.nodup_range'
    exact List.pairwise_map.mp hindices
  apply (hsorted.and hcounters).imp
  intro a b h
  obtain ⟨hle, hne⟩ := h
  simp only [HookRegistry.entryLE, Bool.or_eq_true, Bool.and_eq_true, decide_eq_true_eq,
    beq_iff_eq] at hle
  omega

end McpZero.Pipeline

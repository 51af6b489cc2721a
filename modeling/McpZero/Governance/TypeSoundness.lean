import McpZero.Governance.Acceptance
import McpZero.Governance.DenyOverrides

/-! Type soundness of the loader: what it accepts is decided by its documented reading. -/
namespace McpZero.Governance
open Python

/-- An accepted document has typed rules and is decided by its documented reading, and a
document with an ill-typed field is rejected. -/
def TypeSound (data : Value) : Prop :=
  (∀ p, Loader.loadPolicy data = .ok p → p.Typed ∧
    ∃ d R, data = .dict d ∧ readDocument d = some R ∧
      ∀ i, (PolicyEngine.evaluate p i).effect = R.decision i) ∧
  ∀ d, data = .dict d → ¬ DocumentTyped d → ∃ e, Loader.loadPolicy data = .error e

/-- An accepted document is decided by its documented reading exactly if its fields have their
documented types and no `*` among its users hides a rule. -/
theorem typeSound_of_accepted {d : Dict} {p : PolicyConfig}
    (h : Loader.loadPolicy (.dict d) = .ok p) :
    (p.Typed ∧ ∃ R, readDocument d = some R ∧
      ∀ i, (PolicyEngine.evaluate p i).effect = R.decision i) ↔
    DocumentTyped d ∧ ServersNamed d ∧ ∀ R, readDocument d = some R → ∀ i, R.StarsIdle i := by
  have hbuild := (Loader.loadPolicy_eq_ok.mp h).1
  rw [Loader.documentTyped_iff hbuild, Loader.serversNamed_iff hbuild,
    readDocument_of_build hbuild]
  constructor
  · intro h
    obtain ⟨htyped, R, hR, hdecision⟩ := h
    refine ⟨htyped, (PolicyConfig.reading_isSome_iff.mp ⟨R, hR⟩).2, fun R' hR' i => ?_⟩
    rw [hR] at hR'
    obtain rfl := Option.some.inj hR'
    rw [← Reading.decideBy_matches_iff, ← PolicyEngine.evaluate_of_reading hR]
    exact hdecision i
  · intro h
    obtain ⟨htyped, hnamed, hidle⟩ := h
    obtain ⟨R, hR⟩ := PolicyConfig.reading_isSome_iff.mpr ⟨htyped, hnamed⟩
    refine ⟨htyped, R, hR, fun i => ?_⟩
    rw [PolicyEngine.evaluate_of_reading hR]
    exact Reading.decideBy_matches_iff.mpr (hidle R hR i)

/-- One allow rule whose tools are a string instead of a list. -/
def looseDocument : Dict :=
  [(.str "version", .int 1),
   (.str "servers", .list [.dict [(.str "name", .str "db"), (.str "transport", .str "http")]]),
   (.str "policies", .list [.dict
     [(.str "id", .str "reads"), (.str "description", .str "reading"),
      (.str "mcp_servers", .list [.dict
        [(.str "name", .str "db"), (.str "tools", .str "read_*")]])]])]

end McpZero.Governance

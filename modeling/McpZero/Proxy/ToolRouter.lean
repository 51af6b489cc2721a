import McpZero.Errors
import McpZero.Python.Value
import McpZero.Lib.Separator

/-! Tool names in the namespace of their server, `server__tool`. -/
namespace McpZero.Proxy
open Python Lib

def separator : String := "__"

/-- `namespace_tool`. An f-string renders a server name that is no string by its `str`. -/
def namespaceTool (serverName : Scalar) (toolName : String) : String :=
  serverName.text ++ separator ++ toolName

/-- `parse_tool`: split at the first separator; both parts must be non-empty. -/
def parseTool (namespacedName : String) : Except Exc (String × String) :=
  let invalid := Exc.routing ("Invalid namespaced tool name: '" ++ namespacedName ++
    "' (expected 'server" ++ separator ++ "tool')") ""
  match splitOnce separator.toList namespacedName.toList with
  | none => .error invalid
  | some (server, tool) =>
    if server = [] ∨ tool = [] then .error invalid
    else .ok (String.ofList server, String.ofList tool)

/-- A server name that the separator cannot run into. -/
def CleanName (s : String) : Prop := ¬ ['_', '_'] <:+: s.toList ++ ['_']

instance (s : String) : Decidable (CleanName s) := inferInstanceAs (Decidable (¬ _))

/-- In the terms of the naming rule: no double underscore inside and no underscore at the
end. -/
theorem cleanName_iff (s : String) :
    CleanName s ↔ ¬ ['_', '_'] <:+: s.toList ∧ s.toList.getLast? ≠ some '_' := by
  unfold CleanName
  generalize s.toList = cs
  have hend : ['_', '_'] <:+: cs ++ ['_'] ↔ ['_', '_'] <:+: cs ∨ ['_', '_'] <:+ cs ++ ['_'] := by
    rw [List.infix_concat_iff, or_comm]
  have hlast : ['_', '_'] <:+ cs ++ ['_'] ↔ cs.getLast? = some '_' := by
    rw [List.getLast?_eq_some_iff]
    constructor
    · rintro ⟨t, ht⟩
      rw [show ['_', '_'] = ['_'] ++ ['_'] from rfl, ← List.append_assoc] at ht
      exact ⟨t, (List.append_cancel_right ht).symm⟩
    · rintro ⟨t, rfl⟩
      exact ⟨t, by simp⟩
  rw [hend, hlast, not_or]

/-- Parsing undoes the namespacing of a tool exactly for clean server names. -/
theorem parseTool_namespaceTool_iff (s t : String) (hs : s ≠ "") (ht : t ≠ "") :
    parseTool (namespaceTool (.str s) t) = .ok (s, t) ↔ CleanName s := by
  have hne : ∀ {u : String}, u ≠ "" → u.toList ≠ [] := by
    intro u hu h
    exact hu (String.toList_eq_nil_iff.mp h)
  have hsep : separator.toList = ['_', '_'] := by decide
  have hsplit := splitOnce_join_iff (by simp [hsep] : separator.toList ≠ []) s.toList t.toList
  have hname : (namespaceTool (.str s) t).toList = s.toList ++ separator.toList ++ t.toList := by
    simp [namespaceTool]
  have hlast : separator.toList.dropLast = ['_'] := by decide
  rw [hlast] at hsplit
  unfold CleanName
  rw [← hsep, ← hsplit, parseTool, hname]
  constructor
  · intro h
    cases hx : splitOnce separator.toList (s.toList ++ separator.toList ++ t.toList) with
    | none =>
      simp only [hx] at h
      cases h
    | some p =>
      simp only [hx] at h
      split_ifs at h
      simp only [Except.ok.injEq, Prod.mk.injEq] at h
      obtain ⟨rfl, rfl⟩ := h
      simp
  · intro h
    simp only [h, hne hs, hne ht, or_self, if_false, String.ofList_toList]

end McpZero.Proxy

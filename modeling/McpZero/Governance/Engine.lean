import McpZero.Governance.Config

/-! The policy engine. It applies Python operators to the untyped fields of the rules, so a
field of another type changes their meaning or raises. -/
namespace McpZero.Governance
open Python
open Value (typeError noAttribute bytesAffix)

structure PolicyInput where
  userId : String
  groups : List String := []
  mcpServer : String := ""
  tool : String := ""
  deriving DecidableEq

structure EvaluationResult where
  effect : PolicyEffect
  policyId : Option Value := none
  reason : Option Value := none

/-- `_matches_pattern`. Only strings have the methods it calls. -/
def matchesPattern (pattern : Value) (value : String) : Except Exc Bool :=
  match pattern with
  | .str p =>
    if p = "*" then .ok true
    else if endsWith p "*" then .ok (p.toList.dropLast.isPrefixOf value.toList)
    else if startsWith p "*" then .ok (p.toList.tail.isSuffixOf value.toList)
    else .ok (p == value)
  | .bytes _ => .error (bytesAffix "endswith")
  | v => .error (noAttribute v "endswith")

/-- `any(...)` over a generator: it stops at the first hit. -/
def anyMatch (patterns : List Value) (value : String) : Except Exc Bool :=
  match patterns with
  | [] => .ok false
  | p :: rest => do
    if ← matchesPattern p value then return true
    else anyMatch rest value

/-- `set(values)` of strings and other hashable elements. -/
def checkHashable : List Value → Except Exc Unit
  | [] => .ok ()
  | v :: rest =>
    match v.unhashable? with
    | none => checkHashable rest
    | some typeName => .error (typeError ("unhashable type: '" ++ typeName ++ "'"))

/-- `set(groups) & set(values)` is non-empty. -/
def intersects (groups : List String) (values : Value) : Except Exc Bool := do
  let items ← values.iter
  checkHashable items
  return groups.any fun g => items.any (Value.eqStr g)

namespace PolicyEngine

/-- `_subjects_match`. -/
def subjectsMatch (subjects : PolicySubjects) (input : PolicyInput) : Except Exc Bool := do
  if !subjects.users.truthy && !subjects.groups.truthy then return true
  if ← subjects.users.hasStr input.userId then return true
  if ← subjects.groups.hasStr "*" then return true
  intersects input.groups subjects.groups

/-- `_tools_match`. -/
def toolsMatch (patterns : Value) (toolName : String) : Except Exc Bool := do
  if !patterns.truthy then return true
  let items ← patterns.iter
  anyMatch items toolName

/-- `_servers_match`. -/
def serversMatch (input : PolicyInput) : List PolicyServerAccess → Except Exc Bool
  | [] => .ok false
  | access :: rest => do
    if ← matchesPattern access.name input.mcpServer then
      if ← toolsMatch access.tools input.tool then return true
      else serversMatch input rest
    else serversMatch input rest

def ruleMatches (rule : PolicyRule) (input : PolicyInput) : Except Exc Bool := do
  if ← subjectsMatch rule.subjects input then serversMatch input rule.mcpServers
  else return false

/-- The loop of `_evaluate_rules`, which keeps the first matching rule of each effect. -/
def scan (input : PolicyInput) : List PolicyRule → Option PolicyRule → Option PolicyRule →
    Except Exc (Option PolicyRule × Option PolicyRule)
  | [], firstDeny, firstAllow => .ok (firstDeny, firstAllow)
  | rule :: rest, firstDeny, firstAllow => do
    if ← ruleMatches rule input then
      match rule.effect with
      | .deny => scan input rest (firstDeny <|> some rule) firstAllow
      | .allow => scan input rest firstDeny (firstAllow <|> some rule)
    else scan input rest firstDeny firstAllow

/-- `_evaluate_rules`. -/
def evaluateRules (policy : PolicyConfig) (input : PolicyInput) : Except Exc EvaluationResult := do
  match ← scan input policy.policies none none with
  | (some rule, _) =>
    return { effect := .deny, policyId := some rule.id, reason := some rule.description }
  | (none, some rule) => return { effect := .allow, policyId := some rule.id }
  | (none, none) =>
    return { effect := policy.default,
             reason := if policy.default = .deny then
               some (.str "No matching policy; default is deny") else none }

/-- `evaluate`: an exception is a denial. -/
def evaluate (policy : PolicyConfig) (input : PolicyInput) : EvaluationResult :=
  match evaluateRules policy input with
  | .ok result => result
  | .error e => { effect := .deny, reason := some (.str ("Evaluation error: " ++ e.message)) }

end PolicyEngine

end McpZero.Governance

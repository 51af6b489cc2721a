import McpZero.Governance.Hook
import McpZero.Proxy.CallTool

/-! `ProxyServer._list_tools`: authenticate the caller, fetch the tools of every server, and
keep those that the policy allows. -/
namespace McpZero.Proxy
open Python Pipeline Governance

/-- A tool with its other fields, which the proxy copies. -/
structure Tool (T : Type) where
  name : String
  details : T

/-- A listing request. `listUpstream` is `get_session` and `session.list_tools` on a server,
under a timeout. -/
structure Listing (σ T : Type) where
  listUpstream : Scalar → Action σ (List (Tool T))
  policyEngine : Option PolicyConfig := none

namespace ProxyServer

variable {σ S C T : Type} (P : ProxyServer σ S C) (L : Listing σ T)

/-- `ServerManager.server_names`. -/
def serverNames : List Scalar := (P.configs.map (·.name)).eraseDups

/-- The context of a listing has no server and no tool. -/
def listContext (correlationId authorization : String) : HookContext where
  request := { correlationId := correlationId }
  extras := [(.str "authorization", .str authorization)]

/-- The identity of the caller, or `none` when authentication fails. -/
def authenticate (correlationId authorization : String) (s : σ) :
    Option (Option UserIdentity) × σ :=
  match P.pipeline with
  | none => (some none, s)
  | some hooks =>
    match executeHookPoint .preValidation hooks (listContext correlationId authorization) [] s with
    | ((.ok ctx, _), s) => (some ctx.request.identity, s)
    | ((.error _, _), s) => (none, s)

/-- `namespace_tools`. -/
def namespaceTools (serverName : Scalar) (tools : List (Tool T)) : List (Tool T) :=
  tools.map fun tool => { tool with name := namespaceTool serverName tool.name }

/-- `_fetch_all_tools`. A server that fails contributes no tools. -/
def fetchAllTools : List Scalar → σ → List (Tool T) × σ
  | [], s => ([], s)
  | name :: names, s =>
    let (tools, s) :=
      match L.listUpstream name s with
      | (.ok tools, s) => (namespaceTools name tools, s)
      | (.error _, s) => ([], s)
    let (rest, s) := fetchAllTools names s
    (tools ++ rest, s)

/-- The policy input for a namespaced name: what stands before the first separator is the
server. -/
def listedInput (caller : String × List String) (name : String) : Option PolicyInput :=
  (Lib.splitOnce separator.toList name.toList).map fun (server, tool) =>
    { userId := caller.1, groups := caller.2,
      mcpServer := String.ofList server, tool := String.ofList tool }

/-- One test of `_filter_tools_by_policy`. -/
def visible (policy : PolicyConfig) (caller : String × List String) (tool : Tool T) : Bool :=
  match listedInput caller tool.name with
  | none => false
  | some input => (PolicyEngine.evaluate policy input).effect = .allow

/-- `_list_tools`. -/
def listTools (correlationId authorization : String) (s : σ) : List (Tool T) × σ :=
  match P.authenticate correlationId authorization s with
  | (none, s) => ([], s)
  | (some identity, s) =>
    let (tools, s) := fetchAllTools L P.serverNames s
    match L.policyEngine with
    | none => (tools, s)
    | some policy => (tools.filter (visible policy (GovernanceHook.caller identity)), s)

end ProxyServer

end McpZero.Proxy

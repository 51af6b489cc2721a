import McpZero.Errors
import McpZero.Python.Value

/-! Configuration of a downstream server, without the fields that only the process or URL
layers read. -/
namespace McpZero.Transport
open Python

inductive TransportType
  | http
  | sse
  | stdio
  deriving DecidableEq

def TransportType.value : TransportType → String
  | http => "http"
  | sse => "sse"
  | stdio => "stdio"

/-- The name comes out of the policy file unchecked, so it need not be a string. The timeout
keeps its text, which messages show. Whether `StdioServerParameters` accepts the command, the
arguments and the environment is for that class to say; a request adds only strings to them. -/
structure ServerConfig where
  name : Scalar
  transport : TransportType
  timeoutSeconds : Python.Float := ⟨.finite 30, "30.0"⟩
  maxRetries : ℕ := 2
  retryDelaySeconds : ℚ := 1
  tokenExchange : Bool := false
  targetAudience : Option String := none
  requiredScopes : List String := []
  headers : List (String × String) := []
  parametersAccepted : Bool := true

/-- The transport of the server cannot be connected: its `connect` raises before there is an
owner. -/
def ServerConfig.refused (config : ServerConfig) : Bool :=
  config.transport = .stdio && !config.parametersAccepted

/-- `ServerManager.get_config`: of two configs with one name the later is kept. -/
def getConfig (configs : List ServerConfig) (serverName : String) : Except Exc ServerConfig :=
  match configs.reverse.find? (·.name == .str serverName) with
  | some config => .ok config
  | none => .error (.routing ("No configuration for server '" ++ serverName ++ "'") serverName)

theorem mem_of_getConfig {configs : List ServerConfig} {serverName : String}
    {config : ServerConfig} (h : getConfig configs serverName = .ok config) :
    config ∈ configs := by
  unfold getConfig at h
  split at h
  case h_1 c hfind =>
    obtain rfl : c = config := Except.ok.inj h
    exact List.mem_reverse.mp (List.mem_of_find?_eq_some hfind)
  case h_2 => cases h

end McpZero.Transport

import McpZero.Python.Value

/-! The exceptions that the gateway raises or tells apart. Only subclasses of `Exception`
are listed: the cancellation of a task is not an outcome here, since nothing of the
cancelled request runs after it. -/
namespace McpZero
open Python

/-- An exception with the fields its class stores. The reason of a `ShortCircuitError` is a string
by its annotation alone. -/
inductive Exc
  | shortCircuit (reason : Value) (deny : Bool)
  | hook (message hookName hookPoint : String)
  | maskingEngine (message engine : String)
  | identity (typeName message : String)
  | tokenExchange (message audience : String)
  | routing (message serverName : String)
  | upstream (message serverName correlationId : String)
  | proxyTimeout (message serverName correlationId : String)
  | timeout (message : String)
  | transportConnection (message : String)
  | transportTimeout (message : String)
  | transport (typeName message : String)
  | other (typeName message : String)

namespace Exc

/-- `str(exc)`. -/
def message : Exc → String
  | shortCircuit reason _ => reason.text
  | hook message _ _ => message
  | maskingEngine message _ => message
  | identity _ message => message
  | tokenExchange message _ => message
  | routing message _ => message
  | upstream message _ _ => message
  | proxyTimeout message _ _ => message
  | timeout message => message
  | transportConnection message => message
  | transportTimeout message => message
  | transport _ message => message
  | other _ message => message

/-- `exc.args[0]`. -/
def argument : Exc → Value
  | shortCircuit reason _ => reason
  | e => .str e.message

def IsShortCircuit : Exc → Prop
  | shortCircuit _ _ => True
  | _ => False

/-- Whether the exception is a `ShortCircuitError` with `deny=True`. -/
def denies : Exc → Bool
  | shortCircuit _ deny => deny
  | _ => false

end Exc

/-- A coroutine that may raise, on a state that everything running beside it shares. -/
abbrev Action (σ α : Type) := σ → Except Exc α × σ

end McpZero

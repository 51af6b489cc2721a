import McpZero.Audit.Event
import McpZero.Errors

/-! The event bus. Its handlers work on a world `η` of their own. -/
namespace McpZero.Events
open Audit

structure EventHandler (η : Type) where
  name : String
  handleEvent : AuditEvent → Action η Unit

structure EventBus (η : Type) where
  handlers : List (EventHandler η) := []

/-- `emit`: what a handler raises is dropped, and the next one is called. -/
def EventBus.emit {η : Type} (bus : EventBus η) (event : AuditEvent) (s : η) : η :=
  bus.handlers.foldl (fun s handler => (handler.handleEvent event s).2) s

end McpZero.Events

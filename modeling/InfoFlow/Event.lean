import InfoFlow.Label

/-! # Events

What the tracking does and refuses to do is recorded as events with stable names and codes. -/

namespace InfoFlow

inductive Component where
  | originRegistry
  | declassificationTable
  | controlFlowStack
  | policy
  | loader
deriving DecidableEq

inductive Activity where
  | originRegistered
  | policyOriginRegistered
  | capabilityRecorded
  | labelAssigned
  | labelUpgraded
  | eventContextUpdated
  | scriptEntered
  | scriptExited
  | exceptionUnwound
deriving DecidableEq

inductive Outcome where
  | pass
  /-- There was no room to record it. -/
  | dropped
  /-- The most sensitive answer was given in place of an unknown one. -/
  | fallback
  /-- The caller may not do this. -/
  | denied
  /-- The write was forbidden. -/
  | blocked
deriving DecidableEq

def Component.name : Component → String
  | .originRegistry => "origin_registry"
  | .declassificationTable => "declassification_table"
  | .controlFlowStack => "control_flow_stack"
  | .policy => "policy"
  | .loader => "loader"

def Activity.name : Activity → String
  | .originRegistered => "origin_registered"
  | .policyOriginRegistered => "policy_origin_registered"
  | .capabilityRecorded => "capability_recorded"
  | .labelAssigned => "label_assigned"
  | .labelUpgraded => "label_upgraded"
  | .eventContextUpdated => "event_context_updated"
  | .scriptEntered => "script_entered"
  | .scriptExited => "script_exited"
  | .exceptionUnwound => "exception_unwound"

def Outcome.name : Outcome → String
  | .pass => "pass"
  | .dropped => "dropped"
  | .fallback => "fallback"
  | .denied => "denied"
  | .blocked => "blocked"

def registryFullCode : String := "FE-IFC-0001"

def tableFullCode : String := "FE-IFC-0002"

def sensitiveUpgradeCode : String := "FE-IFC-0003"

def notPolicyContextCode : String := "FE-IFC-0004"

def noRunningScriptCode : String := "FE-IFC-0005"

def invalidNameCode : String := "FE-IFC-0006"

structure Event where
  traceId : String
  component : Component
  activity : Activity
  outcome : Outcome
  errorCode : Option String := none
  /-- The origin or capability that the event is about. -/
  subject : Option String := none
  label : Option Label := none
  pc : Option Label := none
deriving DecidableEq

def Event.isDiagnostic (e : Event) : Bool := e.errorCode.isSome

/-! ### Event logs

A log collects the events of one run in the order in which they happen. -/

/-- The events recorded so far, the oldest first, and the name of the run they belong to. -/
structure EventLog where
  traceId : String
  events : List Event
deriving DecidableEq

namespace EventLog

def empty (traceId : String) : EventLog := ⟨traceId, []⟩

/-- An event of this run that carries nothing else yet. -/
def event (log : EventLog) (component : Component) (activity : Activity) (outcome : Outcome) : Event :=
  { traceId := log.traceId, component, activity, outcome }

def push (log : EventLog) (e : Event) : EventLog := { log with events := log.events ++ [e] }

def append (log : EventLog) (events : List Event) : EventLog := { log with events := log.events ++ events }

def last? (log : EventLog) : Option Event := log.events.getLast?

def diagnostics (log : EventLog) : List Event := log.events.filter (·.isDiagnostic)

def drained (log : EventLog) : EventLog := empty log.traceId

end EventLog
end InfoFlow

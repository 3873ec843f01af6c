import InfoFlow.Context.Basic
import InfoFlow.Label
import InfoFlow.Node
import InfoFlow.Origin.Url

/-! # Policy operations

Policy code assigns labels and sets the label under which event handlers run. Any script may raise the
label of a value to its own origin, as far as the no-sensitive-upgrade rule permits. What is refused
leaves the labels as they are and is recorded; a forbidden write also asks the host to stop. -/

namespace InfoFlow

inductive PolicyError where
  /-- The program-counter label is not the policy label. -/
  | notPolicyContext (pc : Label)
  /-- The place labeled `label` must not be written under `pc`. -/
  | sensitiveUpgrade (pc label : Label)
  | noRunningScript
deriving DecidableEq

def PolicyError.code : PolicyError → String
  | .notPolicyContext _ => notPolicyContextCode
  | .sensitiveUpgrade _ _ => sensitiveUpgradeCode
  | .noRunningScript => noRunningScriptCode

def PolicyError.message : PolicyError → String
  | .notPolicyContext pc => "operation requires the policy context, pc is " ++ pc.text
  | .sensitiveUpgrade pc label =>
    "no-sensitive-upgrade violation: pc " ++ pc.text ++ " cannot upgrade a value labeled " ++ label.text
  | .noRunningScript => "no script is executing"

def PolicyError.isAbort : PolicyError → Bool
  | .sensitiveUpgrade _ _ => true
  | _ => false

namespace Context

variable {α : Type}

/-- Refuses unless the program-counter label is exactly the policy label. -/
def requirePolicy (c : Context) (activity : Activity) : Except PolicyError Unit × Context :=
  if c.pc = .policy then (.ok (), c)
  else
    let refusal :=
      { c.event .policy activity .denied with errorCode := some notPolicyContextCode, pc := some c.pc }
    (.error (.notPolicyContext c.pc), c.record refusal)

/-- The label that a hint names; its origin is registered on first sight. -/
def resolve (c : Context) (hint : Origin.Hint) (activity : Activity) : Except PolicyError Label × Context :=
  match hint with
  | .origin url =>
    let (label, c) := c.originLabel url
    (.ok label, c)
  | .currentScript =>
    match c.currentScript? with
    | some script =>
      let (label, c) := c.originLabel script
      (.ok label, c)
    | none =>
      let refusal := { c.event .policy activity .denied with errorCode := some noRunningScriptCode }
      (.error .noRunningScript, c.record refusal)

/-- Refuses a write into a place labeled `existing` that the no-sensitive-upgrade rule forbids, and
then asks the host to stop. -/
def guardUpgrade (c : Context) (existing : Label) : Except PolicyError Unit × Context :=
  if c.globals.mode.permits c.pc existing then (.ok (), c)
  else
    let refusal :=
      { c.event .policy .labelUpgraded .blocked with
        errorCode := some sensitiveUpgradeCode, label := some existing, pc := some c.pc }
    (.error (.sensitiveUpgrade c.pc existing), record { c with globals := c.globals.requestAbort } refusal)

/-- Gives a value the label that a hint names. Only policy code may do this. Beside the answer stands the
value afterwards. -/
def assign (c : Context) (target : Labeled α) (hint : Origin.Hint) :
    Except PolicyError Label × Labeled α × Context :=
  match c.requirePolicy .labelAssigned with
  | (.error e, c) => (.error e, target, c)
  | (.ok (), c) =>
    match c.resolve hint .labelAssigned with
    | (.error e, c) => (.error e, target, c)
    | (.ok label, c) =>
      let success :=
        { c.event .policy .labelAssigned .pass with
          subject := some hint.text, label := some label, pc := some c.pc }
      (.ok label, target.bind label, c.record success)

/-- Joins the running script's label into a value's label. The value's present label decides whether
that is permitted. -/
def upgrade (c : Context) (target : Labeled α) : Except PolicyError Label × Labeled α × Context :=
  match c.resolve .currentScript .labelUpgraded with
  | (.error e, c) => (.error e, target, c)
  | (.ok label, c) =>
    match c.guardUpgrade target.label with
    | (.error e, c) => (.error e, target, c)
    | (.ok (), c) =>
      let raised := target.raise label
      let success :=
        { c.event .policy .labelUpgraded .pass with label := some raised.label, pc := some c.pc }
      (.ok raised.label, raised, c.record success)

/-- Joins the labels of origins, in their order, into a label. A public one makes the whole public, and
the origins behind it are not looked at. -/
def accumulate (c : Context) (label : Label) : List String → Label × Context
  | [] => (label, c)
  | url :: rest =>
    let (found, c) := c.originLabel url
    if found.isPublic then (.bottom, c) else accumulate c (label.join found) rest

/-- Joins the labels of origins into the label under which event handlers run. Only policy code may do
this. -/
def setEventContext (c : Context) (urls : List String) : Except PolicyError Label × Context :=
  match c.requirePolicy .eventContextUpdated with
  | (.error e, c) => (.error e, c)
  | (.ok (), c) =>
    let (label, c) := c.accumulate c.globals.eventContextLabel urls
    let c := { c with globals := { c.globals with eventContextLabel := label } }
    (.ok label, c.record { c.event .policy .eventContextUpdated .pass with label := some label })

def trust (c : Context) (value : String) : Except PolicyError Label × Context :=
  c.setEventContext (Origin.trustList value)

def writeLabel (c : Context) (value : Label) : Label := value.join c.pc

def checkedWrite (c : Context) (existing value : Label) : Except PolicyError Label × Context :=
  match c.guardUpgrade existing with
  | (.error e, c) => (.error e, c)
  | (.ok (), c) => (.ok (c.writeLabel value), c)

/-! ### Nodes -/

/-- The label of a node as that of a value. -/
def nodeTarget (store : NodeStore) (node : Node) : Labeled Node := .primitive node (store.labelOf node)

/-- Stores the label that a policy operation gives a node; what it refuses changes no label. -/
def storeNode (store : NodeStore) (node : Node) (answer : Except PolicyError Label × Labeled Node × Context) :
    Except PolicyError Label × NodeStore × Context :=
  match answer with
  | (.error e, _, c) => (.error e, store, c)
  | (.ok label, target, c) => (.ok label, store.tag node target.label, c)

def assignNode (c : Context) (store : NodeStore) (node : Node) (hint : Origin.Hint) :
    Except PolicyError Label × NodeStore × Context :=
  storeNode store node (c.assign (nodeTarget store node) hint)

def upgradeNode (c : Context) (store : NodeStore) (node : Node) :
    Except PolicyError Label × NodeStore × Context :=
  storeNode store node (c.upgrade (nodeTarget store node))

end Context
end InfoFlow

import InfoFlow.Config.Basic
import InfoFlow.Globals
import InfoFlow.Stack

/-! # Contexts

A context is all state of one execution: the stack of regions, the registries, the globals, the log
and the scripts that run. The globals' copy of the program-counter label follows the stack, and the
events of the registries are moved to the context's log after every operation. -/

namespace InfoFlow

structure Context where
  stack : Stack
  registry : Origin.Registry
  table : CapabilityTable
  globals : Globals
  log : EventLog
  /-- The URLs of the running scripts, the innermost first. -/
  scripts : List String
deriving DecidableEq

namespace Context

def pc (c : Context) : Label := c.stack.head

def currentScript? (c : Context) : Option String := c.scripts.head?

/-- Moves the events of the registries to the context's log. -/
def collect (c : Context) : Context :=
  let (registered, registry) := c.registry.drain
  let (recorded, table) := c.table.drain
  { c with registry, table, log := (c.log.append registered).append recorded }

/-- Appends an event behind those of the registries. -/
def record (c : Context) (e : Event) : Context :=
  let c := c.collect
  { c with log := c.log.push e }

def event (c : Context) (component : Component) (activity : Activity) (outcome : Outcome) : Event :=
  c.log.event component activity outcome

/-- Replaces the stack, and the copy of its head's label with it. -/
def setStack (c : Context) (stack : Stack) : Context :=
  { c with stack, globals := { c.globals with pc := stack.head } }

/-- The context that a configuration asks for: its policy origins are registered first, then its
ordinary origins, then its capabilities. -/
def ofConfig (config : Config) : Context :=
  let registry := config.policyOrigins.foldl (fun r url => (r.putPolicy url).2) (.empty config.traceId)
  let registry := config.origins.foldl (fun r url => (r.putOrigin url).2) registry
  let table := config.capabilities.foldl (fun t entry => (t.put entry).2) (.empty config.traceId)
  collect
    { stack := .initial
      registry
      table
      globals := .initial config.enforcement
      log := .empty config.traceId
      scripts := [] }

def drain (c : Context) : List Event × Context :=
  let c := c.collect
  (c.log.events, { c with log := c.log.drained })

def setEnforcement (c : Context) (mode : Enforcement) : Context :=
  { c with globals := { c.globals with mode } }

/-! ### The stack

What opens or leaves a region or joins into one answers with the program-counter label afterwards. -/

/-- The program-counter label and the context after a change of the stack. -/
def moveTo (c : Context) (stack : Stack) : Label × Context := (stack.head, c.setStack stack)

def push (c : Context) (r : Region) : Label × Context := c.moveTo (c.stack.push r)

def pop (c : Context) : Label × Context := c.moveTo c.stack.leave

def join (c : Context) (label : Label) : Label × Context := c.moveTo (c.stack.join label)

def joinHandlers (c : Context) (label : Label) (functionHandler exceptionEdge : Bool) : Label × Context :=
  c.moveTo (c.stack.joinHandlers label functionHandler exceptionEdge)

def joinBranch (c : Context) (label : Label) (branchEdge : Bool) : Label × Context :=
  c.moveTo (c.stack.joinBranch label branchEdge)

def setLoop (c : Context) (loopEdge : Bool) : Context := { c with stack := c.stack.setLoop loopEdge }

/-! ### The registries -/

def registerOrigin (c : Context) (url : String) (asPolicy : Bool) : Origin.Registration × Context :=
  let (answer, registry) := c.registry.put url asPolicy
  (answer, collect { c with registry })

/-- The label of a URL's origin, which is registered on first sight. -/
def originLabel (c : Context) (url : String) : Label × Context :=
  let (label, registry) := c.registry.getLabel url
  (label, collect { c with registry })

def recordCapability (c : Context) (entry : Capability) : Option Nat × Context :=
  let (index, table) := c.table.put entry
  (index, collect { c with table })

def setBits (c : Context) (name : String) (bits : UInt64) : Bool × Context :=
  let (found, table) := c.table.setBits name bits
  (found, { c with table })

def setBitsAt (c : Context) (index : Nat) (bits : UInt64) : Bool × Context :=
  let (found, table) := c.table.setBitsAt index bits
  (found, { c with table })

end Context
end InfoFlow

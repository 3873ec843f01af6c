import InfoFlow.Context.Basic
import InfoFlow.Context.Policy

/-! # Hooks of the interpreter

The interpreter reports where a region is entered and where one ends, the document which scripts it
loads. Where regions end is computed by the compiler and taken as it comes. -/

namespace InfoFlow.Context

/-- A script starts. A script of a policy origin runs with the policy source. Any other script gets a
slot for its origin and does not inherit the policy source from a policy script that starts it; all
other sources it does inherit. -/
def enterScript (c : Context) (url : String) : Label × Context :=
  let c :=
    if c.registry.isPolicyOrigin url then c.setStack (c.stack.push (.plain .policy .scriptExit))
    else
      let c := (c.originLabel url).2
      c.setStack (c.stack.pushWithout (.plain .bottom .scriptExit) .policy)
  let c := { c with scripts := url :: c.scripts }
  (c.pc, c.record { c.event .loader .scriptEntered .pass with subject := some url, pc := some c.pc })

/-- The innermost script ends, and with it every region that it left open. -/
def exitScript (c : Context) : Label × Context :=
  match c.scripts with
  | [] => (c.pc, c)
  | url :: scripts =>
    let c := { c.setStack c.stack.leaveScript with scripts }
    (c.pc, c.record { c.event .loader .scriptExited .pass with subject := some url, pc := some c.pc })

/-- A conditional branch; its region keeps the enclosing function's handler. -/
def branch (c : Context) (condition : Label) (exit : Location) (guardRegister : Option Register) :
    Label × Context :=
  c.push { Region.branch condition exit guardRegister with functionHandler := c.stack.top.functionHandler }

/-- A call of a function whose reference carries the label `callee`. -/
def call (c : Context) (callee : Label) (returnsTo : Location) (functionHandler : Bool) : Label × Context :=
  c.push { Region.plain callee returnsTo with functionHandler, loopEdge := some false }

/-- A loop's header. The first arrival opens the loop's region; later ones join their condition into
it. The answer tells whether a region was opened. -/
def loopHeader (c : Context) (condition : Label) (exit : Location) : Bool × Context :=
  if c.stack.isLoopAt exit then (false, (c.join condition).2)
  else (true, (c.push { Region.branch condition exit none with loopEdge := some true }).2)

/-- A protected block whose handler ends at `exit`. -/
def exceptionRegion (c : Context) (exit : Location) : Label × Context :=
  c.push { Region.plain .bottom exit with exceptionEdge := true, functionHandler := true }

/-- Control reaches a location: every region that ends there is left. The answer is their number. -/
def reach (c : Context) (location : Location) : Nat × Context :=
  (c.stack.closeCount location, c.setStack (c.stack.closeAt location))

/-- An exception is thrown. The regions inside the nearest handler of the running script are left, and
the handler runs under the label that governed the throw; it catches no second exception. An exception
that the script does not catch leaves its regions up to the script's own frame. The answer is the number
of regions left. -/
def throwException (c : Context) (exception : Label) : Nat × Context :=
  let count := c.stack.unwindCount
  let influence := c.pc.join exception
  let unwound := c.stack.unwind
  let caught := unwound.top.exceptionEdge
  let stack := if caught then unwound.joinHandlers influence unwound.top.functionHandler false else unwound
  let c := c.setStack stack
  let unwinding :=
    { c.event .controlFlowStack .exceptionUnwound (if caught then .pass else .dropped) with
      subject := c.currentScript?, label := some influence, pc := some c.pc }
  (count, c.record unwinding)

/-- A function returns a value, which carries the program-counter label too. -/
def returnValue (c : Context) (value : Label) : Label × Context :=
  let label := value.join c.pc
  (label, { c with globals := { c.globals with returnLabel := label } })

/-- A script's source was found in the document. A policy manifest makes its origin a policy origin. -/
def scriptSource (c : Context) (url : String) (isManifest : Bool) : Origin.Registration × Context :=
  let (answer, c) := c.registerOrigin url isManifest
  match answer.label? with
  | none => (answer, c)
  | some label =>
    (answer, c.record { c.event .loader .originRegistered .pass with subject := some url, label := some label })

end InfoFlow.Context

namespace InfoFlow

/-! ### Traces

A trace is a list of steps, each of which is one hook of the interpreter. To apply a trace to a context
is to call the hooks in their order. -/

/-- One call of a hook. -/
inductive Step where
  | enterScript (url : String)
  | exitScript
  | branch (condition : Label) (exit : Location) (guardRegister : Option Register)
  | call (callee : Label) (returnsTo : Location) (functionHandler : Bool)
  | loopHeader (condition : Label) (exit : Location)
  | exceptionRegion (exit : Location)
  | reach (location : Location)
  | throwException (exception : Label)
  | returnValue (value : Label)
  | join (label : Label)
  /-- A write into a place labeled `existing`. -/
  | write (existing value : Label)
deriving DecidableEq

/-- Calls the hook of a step. The answer is the program-counter label afterwards, or why a write was
refused. -/
def Context.apply (c : Context) (step : Step) : Except PolicyError Label × Context :=
  match step with
  | .enterScript url => let c := (c.enterScript url).2; (.ok c.pc, c)
  | .exitScript => let c := c.exitScript.2; (.ok c.pc, c)
  | .branch condition exit guardRegister => let c := (c.branch condition exit guardRegister).2; (.ok c.pc, c)
  | .call callee returnsTo functionHandler => let c := (c.call callee returnsTo functionHandler).2; (.ok c.pc, c)
  | .loopHeader condition exit => let c := (c.loopHeader condition exit).2; (.ok c.pc, c)
  | .exceptionRegion exit => let c := (c.exceptionRegion exit).2; (.ok c.pc, c)
  | .reach location => let c := (c.reach location).2; (.ok c.pc, c)
  | .throwException exception => let c := (c.throwException exception).2; (.ok c.pc, c)
  | .returnValue value => let c := (c.returnValue value).2; (.ok c.pc, c)
  | .join label => let c := (c.join label).2; (.ok c.pc, c)
  | .write existing value =>
    match c.checkedWrite existing value with
    | (.error e, c) => (.error e, c)
    | (.ok _, c) => (.ok c.pc, c)

end InfoFlow

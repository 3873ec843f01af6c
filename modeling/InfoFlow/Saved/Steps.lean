import InfoFlow.Json.Whole
import InfoFlow.Saved.State
import InfoFlow.Context.Hooks

/-! # The saved form of traces

A step is written as an object whose member `op` names the hook; the other members are the hook's
arguments. The name may stand behind the arguments, so a step is read as a whole before its arguments
are. A step may also be an array of the name and the arguments. -/

namespace InfoFlow

open Json (Fields record fields?)

namespace Step

/-- The member that names the hook. -/
def tag : String := "op"

/-- The name of a step's hook. -/
def hook : Step → String
  | .enterScript _ => "enter_script"
  | .exitScript => "exit_script"
  | .branch _ _ _ => "branch"
  | .call _ _ _ => "call"
  | .loopHeader _ _ => "loop_header"
  | .exceptionRegion _ => "exception_region"
  | .reach _ => "reach"
  | .throwException _ => "throw"
  | .returnValue _ => "return"
  | .join _ => "join"
  | .write _ _ => "write"

/-- The hook's arguments in the order in which they are written. -/
def arguments : Step → Fields
  | .enterScript url => [("url", InfoFlow.toJson url)]
  | .exitScript => []
  | .branch condition exit guardRegister =>
    [("condition", InfoFlow.toJson condition), ("post_dominator", InfoFlow.toJson exit),
     ("register", InfoFlow.toJson guardRegister)]
  | .call callee returnsTo functionHandler =>
    [("callee", InfoFlow.toJson callee), ("return_location", InfoFlow.toJson returnsTo),
     ("has_exception_handler", InfoFlow.toJson functionHandler)]
  | .loopHeader condition exit =>
    [("condition", InfoFlow.toJson condition), ("exit_location", InfoFlow.toJson exit)]
  | .exceptionRegion exit => [("post_dominator", InfoFlow.toJson exit)]
  | .reach location => [("location", InfoFlow.toJson location)]
  | .throwException exception => [("exception", InfoFlow.toJson exception)]
  | .returnValue value => [("value", InfoFlow.toJson value)]
  | .join label => [("label", InfoFlow.toJson label)]
  | .write existing value => [("existing", InfoFlow.toJson existing), ("value", InfoFlow.toJson value)]

/-- The JSON form of a step. -/
def toJson (step : Step) : Json := record ((tag, .ofString step.hook) :: step.arguments)

/-- The name of the hook and its arguments. An object names the hook exactly once. -/
def untag? : Json → Option (String × Json)
  | .object members =>
    let (names, arguments) := members.partition fun (key, _) => Json.unescape key == some tag.toList
    match names with
    | [(_, name)] => name.string?.map fun name => (name, .object arguments)
    | _ => none
  | .array (name :: arguments) => name.string?.map fun name => (name, .array arguments)
  | _ => none

/-- The step with the given name and arguments. The register of a branch, the handler of a call and the
exception of a throw may be left out. -/
def ofArguments? (name : String) (arguments : Json) : Option Step :=
  match name with
  | "enter_script" => do
    let fields ← fields? [⟨"url", false⟩] arguments
    return .enterScript (← fields.get? "url")
  | "exit_script" => do
    let _ ← fields? [] arguments
    return .exitScript
  | "branch" => do
    let fields ← fields? [⟨"condition", false⟩, ⟨"post_dominator", false⟩, ⟨"register", true⟩] arguments
    return .branch (← fields.get? "condition") (← fields.get? "post_dominator") (← fields.get? "register")
  | "call" => do
    let fields ← fields?
      [⟨"callee", false⟩, ⟨"return_location", false⟩, ⟨"has_exception_handler", true⟩] arguments
    return .call (← fields.get? "callee") (← fields.get? "return_location")
      (← fields.getD? "has_exception_handler" false)
  | "loop_header" => do
    let fields ← fields? [⟨"condition", false⟩, ⟨"exit_location", false⟩] arguments
    return .loopHeader (← fields.get? "condition") (← fields.get? "exit_location")
  | "exception_region" => do
    let fields ← fields? [⟨"post_dominator", false⟩] arguments
    return .exceptionRegion (← fields.get? "post_dominator")
  | "reach" => do
    let fields ← fields? [⟨"location", false⟩] arguments
    return .reach (← fields.get? "location")
  | "throw" => do
    let fields ← fields? [⟨"exception", true⟩] arguments
    return .throwException (← fields.getD? "exception" .bottom)
  | "return" => do
    let fields ← fields? [⟨"value", false⟩] arguments
    return .returnValue (← fields.get? "value")
  | "join" => do
    let fields ← fields? [⟨"label", false⟩] arguments
    return .join (← fields.get? "label")
  | "write" => do
    let fields ← fields? [⟨"existing", false⟩, ⟨"value", false⟩] arguments
    return .write (← fields.get? "existing") (← fields.get? "value")
  | _ => none

/-- The step that a value inside `enclosing` others writes. -/
def ofJson? (enclosing : Nat) (j : Json) : Option Step :=
  if j.isWhole enclosing then (untag? j).bind fun (name, arguments) => ofArguments? name arguments
  else none

/-- The steps that an array writes. -/
def traceOfJson? : Json → Option (List Step)
  | .array items => items.mapM (ofJson? 1)
  | _ => none

end Step

instance : Saved Step where
  toJson := Step.toJson
  ofJson? := Step.ofJson? 0

/-- The text under which a trace is saved. -/
def saveTrace (steps : List Step) : String := save steps

/-- The trace that a text saves. -/
def loadTrace? (text : String) : Option (List Step) := (Json.parse text.toList).bind Step.traceOfJson?

end InfoFlow

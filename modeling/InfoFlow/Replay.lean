import InfoFlow.Digest
import InfoFlow.Context.Hooks
import InfoFlow.Config.Reader
import InfoFlow.Saved.Steps
import InfoFlow.Text

/-! # Replays

A replay applies the steps of a trace to a context and reports each of them on a line. The replay command takes the
configuration and the trace from files that its arguments name. -/

namespace InfoFlow.Replay

/-! ### Arguments of the replay command

The arguments are groups: an option with its value, or a flag. A value is taken as it comes, also if
it looks like an option. -/

structure Arguments where
  trace : String
  config : Option String
  keepGoing : Bool
deriving DecidableEq

inductive ArgumentError where
  | missingValue (option : String)
  | unknown (argument : String)
  /-- The user wants to know how to use the command, or has to be told. -/
  | usage
deriving DecidableEq

def usageLine : String := "usage: franken_ifc_trace_replay --trace <path> [--config <path>] [--keep-going]"

def ArgumentError.message : ArgumentError → String
  | .missingValue option => option ++ " requires a value"
  | .unknown argument => "unknown argument: " ++ argument
  | .usage => usageLine

structure Groups where
  trace : Option String := none
  config : Option String := none
  keepGoing : Bool := false

/-- Reads groups from left to right; of several for one option the last one counts. -/
def readGroups (found : Groups) : List String → Except ArgumentError Groups
  | [] => .ok found
  | "--trace" :: value :: rest => readGroups { found with trace := some value } rest
  | "--config" :: value :: rest => readGroups { found with config := some value } rest
  | "--keep-going" :: rest => readGroups { found with keepGoing := true } rest
  | argument :: _ =>
    if argument = "--trace" ∨ argument = "--config" then .error (.missingValue argument)
    else if argument = "--help" ∨ argument = "-h" then .error .usage
    else .error (.unknown argument)

def Arguments.parse (arguments : List String) : Except ArgumentError Arguments :=
  match readGroups {} arguments with
  | .error e => .error e
  | .ok found =>
    match found.trace with
    | some trace => .ok ⟨trace, found.config, found.keepGoing⟩
    | none => .error .usage

/-! ### Reports of replays

A replay applies the steps of a trace to a context and reports each of them on a line. At a blocked
write it halts, or it goes on as if the step were not there. A replay that comes to the end sums up. -/

def passedLine (index : Nat) (pc : Label) (depth : Nat) : String :=
  "ifc step=" ++ toString index ++ " pc=" ++ pc.text ++ " depth=" ++ toString depth

def blockedLine (index : Nat) (e : PolicyError) : String :=
  "ifc step=" ++ toString index ++ " blocked=" ++ e.code ++ " (" ++ e.message ++ ")"

inductive Ending where
  /-- At a blocked step. -/
  | halted (index : Nat) (error : PolicyError)
  /-- At the end of the trace, with so many blocked steps. -/
  | finished (blocked : Nat) (context : Context)

def acknowledge (c : Context) : Context := { c with globals := c.globals.clearAbort }

/-- The lines of the steps from number `index` on, `blocked` of those before having been blocked, and
how the replay ends. -/
def steps (keepGoing : Bool) (index blocked : Nat) (c : Context) : List Step → List String × Ending
  | [] => ([], .finished blocked c)
  | step :: rest =>
    match c.apply step with
    | (.ok pc, c) =>
      let (lines, ending) := steps keepGoing (index + 1) blocked c rest
      (passedLine index pc c.stack.depth :: lines, ending)
    | (.error e, c) =>
      if keepGoing then
        let (lines, ending) := steps keepGoing (index + 1) (blocked + 1) (acknowledge c) rest
        (blockedLine index e :: lines, ending)
      else ([blockedLine index e], .halted index e)

def summary (count blocked : Nat) (c : Context) : List String :=
  ["ifc trace_id=" ++ c.log.traceId,
   "ifc steps=" ++ toString count,
   "ifc blocked=" ++ toString blocked,
   "ifc final_pc=" ++ c.pc.text,
   "ifc final_depth=" ++ toString c.stack.depth,
   "ifc registered_origins=" ++ toString c.registry.size,
   "ifc events=" ++ toString c.log.events.length,
   "ifc diagnostics=" ++ toString c.log.diagnostics.length,
   "ifc event_digest=" ++ c.log.digest]

def report (keepGoing : Bool) (c : Context) (trace : List Step) : List String × Option (Nat × PolicyError) :=
  match steps keepGoing 0 0 c trace with
  | (lines, .halted index e) => (lines, some (index, e))
  | (lines, .finished blocked c) => (lines ++ summary trace.length blocked c, none)

/-! ### The replay command

The command reads a configuration and a trace from files and replays the trace. It fails if the
arguments or a file cannot be read and if the replay halts; what was reported until then stays. -/

inductive Failure where
  | arguments (error : ArgumentError)
  | config (error : ConfigError)
  /-- The trace's file is missing or no readable text, or the text is no trace. -/
  | trace
  /-- A write was blocked at a step of the trace in a file. -/
  | halted (index : Nat) (error : PolicyError) (path : String)

def Failure.message : Failure → String
  | .arguments error =>
    "Error: Custom \x7b kind: InvalidInput, error: " ++ Text.quoted error.message ++ " \x7d"
  | .config error => "Error: " ++ Text.quoted error.message
  | .trace => "Error: " ++ Text.quoted "the trace cannot be read"
  | .halted index error path =>
    "Error: " ++
      Text.quoted
        ("IFC replay halted at step " ++ toString index ++ ": " ++ error.message ++ " (see " ++ path ++ ")")

structure Run where
  lines : List String
  failure : Option Failure

def Run.text (run : Run) : String := String.join (run.lines.map (· ++ "\n"))

/-- The configuration that the arguments name. The default one is used where none is named. -/
def readConfig (files : String → Contents) : Option String → Except ConfigError Config
  | none => .ok {}
  | some path => Config.ofContents (files path)

def readTrace : Contents → Option (List Step)
  | .text text => loadTrace? text
  | _ => none

/-- Replays a trace from the file `path`. -/
def Run.ofTrace (keepGoing : Bool) (config : Config) (path : String) (trace : List Step) : Run :=
  let (lines, halt) := report keepGoing (.ofConfig config) trace
  ⟨lines, halt.map fun (index, error) => .halted index error path⟩

/-- Runs the command on the given files. The configuration is read before the trace. -/
def command (files : String → Contents) (arguments : List String) : Run :=
  match Arguments.parse arguments with
  | .error e => ⟨[], some (.arguments e)⟩
  | .ok asked =>
    match readConfig files asked.config with
    | .error e => ⟨[], some (.config e)⟩
    | .ok config =>
      match readTrace (files asked.trace) with
      | none => ⟨[], some .trace⟩
      | some trace => .ofTrace asked.keepGoing config asked.trace trace

end InfoFlow.Replay

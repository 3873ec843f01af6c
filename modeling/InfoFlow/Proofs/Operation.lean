import InfoFlow.Context.Hooks

/-! # Operations and runs

Everything that can be done to a context is an operation: the hooks, the changes of the stack and of
the registries, the policy operations and what the host sets itself. A run is a list of operations. The
lemmas say which parts of a context an operation does not touch. -/

namespace InfoFlow

/-- What the host sets in the globals itself. -/
inductive Globals.Change where
  | returnLabel (label : Label)
  | eventNodeLabel (label : Label)
  | eventContextLabel (label : Label)
  | argumentLabel (index : Nat) (label : Label)
  | clearArgumentLabels
  | clearAbort
deriving DecidableEq

/-- The globals after a change; an argument without a slot changes nothing. -/
def Globals.change (g : Globals) : Globals.Change → Globals
  | .returnLabel label => { g with returnLabel := label }
  | .eventNodeLabel label => { g with eventNodeLabel := label }
  | .eventContextLabel label => { g with eventContextLabel := label }
  | .argumentLabel index label => (g.setArgumentLabel index label).toOption.getD g
  | .clearArgumentLabels => g.clearArgumentLabels
  | .clearAbort => g.clearAbort

/-- One operation on a context. The targets of policy operations are values of any type; a node counts as
the value that `Context.nodeTarget` makes of it. -/
inductive Operation : Type 1 where
  | hook (step : Step)
  | push (region : Region)
  | pop
  | joinHandlers (label : Label) (functionHandler exceptionEdge : Bool)
  | joinBranch (label : Label) (branchEdge : Bool)
  | setLoop (loopEdge : Bool)
  | registerOrigin (url : String) (asPolicy : Bool)
  | scriptSource (url : String) (isManifest : Bool)
  | originLabel (url : String)
  | recordCapability (entry : Capability)
  | setBits (name : String) (bits : UInt64)
  | setBitsAt (index : Nat) (bits : UInt64)
  | guardUpgrade (existing : Label)
  | assign {α : Type} (target : Labeled α) (hint : Origin.Hint)
  | upgrade {α : Type} (target : Labeled α)
  | setEventContext (urls : List String)
  | trust (value : String)
  | setEnforcement (mode : Enforcement)
  | setGlobals (change : Globals.Change)
  | drain

/-- The operation opens, leaves or changes regions without a hook. -/
def Operation.editsStack : Operation → Bool
  | .push _ | .pop | .joinHandlers _ _ _ | .joinBranch _ _ | .setLoop _ => true
  | _ => false

/-- The operation neither moves control nor changes the mode or the policy origins. -/
def Operation.isQuiet : Operation → Bool
  | .hook _ | .registerOrigin _ _ | .scriptSource _ _ | .setEnforcement _ => false
  | op => !op.editsStack

namespace Context

variable {c : Context}

/-- The context after an operation, whether that succeeds or is refused. -/
def perform (c : Context) : Operation → Context
  | .hook step => (c.apply step).2
  | .push region => (c.push region).2
  | .pop => c.pop.2
  | .joinHandlers label functionHandler exceptionEdge => (c.joinHandlers label functionHandler exceptionEdge).2
  | .joinBranch label branchEdge => (c.joinBranch label branchEdge).2
  | .setLoop loopEdge => c.setLoop loopEdge
  | .registerOrigin url asPolicy => (c.registerOrigin url asPolicy).2
  | .scriptSource url isManifest => (c.scriptSource url isManifest).2
  | .originLabel url => (c.originLabel url).2
  | .recordCapability entry => (c.recordCapability entry).2
  | .setBits name bits => (c.setBits name bits).2
  | .setBitsAt index bits => (c.setBitsAt index bits).2
  | .guardUpgrade existing => (c.guardUpgrade existing).2
  | .assign target hint => (c.assign target hint).2.2
  | .upgrade target => (c.upgrade target).2.2
  | .setEventContext urls => (c.setEventContext urls).2
  | .trust value => (c.trust value).2
  | .setEnforcement mode => c.setEnforcement mode
  | .setGlobals change => { c with globals := c.globals.change change }
  | .drain => c.drain.2

def run (c : Context) (ops : List Operation) : Context := ops.foldl perform c

/-- The states of a run, from the first to the last. -/
def states (c : Context) : List Operation → List Context
  | [] => [c]
  | op :: ops => c :: (c.perform op).states ops

/-- The context after a trace; a blocked write is passed over. -/
def replay (c : Context) (trace : List Step) : Context := c.run (trace.map .hook)

/-- The answers to the steps of a trace. -/
def answers (c : Context) : List Step → List (Except PolicyError Label)
  | [] => []
  | step :: trace => (c.apply step).1 :: (c.apply step).2.answers trace

@[simp] theorem perform_hook {step : Step} : c.perform (.hook step) = (c.apply step).2 := rfl

@[simp] theorem replay_nil : c.replay [] = c := rfl

@[simp] theorem replay_cons {step : Step} {trace : List Step} :
    c.replay (step :: trace) = (c.apply step).2.replay trace := rfl

theorem replay_append {before after : List Step} : c.replay (before ++ after) = (c.replay before).replay after := by
  simp [replay, run, List.foldl_append]

theorem mem_states_self {ops : List Operation} : c ∈ c.states ops := by
  cases ops with
  | nil => exact List.mem_singleton_self c
  | cons op ops => exact List.mem_cons_self

theorem run_mem_states {ops : List Operation} : c.run ops ∈ c.states ops := by
  induction ops generalizing c with
  | nil => exact List.mem_singleton_self c
  | cons op ops ih => exact List.mem_cons_of_mem c ih

/-- What holds at the start of a run and is kept by each of its operations holds in every state. That an
operation keeps it may depend on what is known of all states. -/
theorem states_of_kept {P Q : Context → Prop} {ops : List Operation} (start : P c)
    (known : ∀ d ∈ c.states ops, Q d)
    (kept : ∀ d, P d → ∀ op ∈ ops, Q (d.perform op) → P (d.perform op)) : ∀ d ∈ c.states ops, P d := by
  induction ops generalizing c with
  | nil =>
    intro d hd
    rwa [List.mem_singleton.mp hd]
  | cons op ops ih =>
    intro d hd
    rcases List.mem_cons.mp hd with rfl | hd
    · exact start
    · have hnext : Q (c.perform op) := known _ (List.mem_cons_of_mem c mem_states_self)
      refine ih (kept c start op List.mem_cons_self hnext) (fun e he => ?_) (fun e he op' hop' => ?_) d hd
      · exact known e (List.mem_cons_of_mem c he)
      · exact kept e he op' (List.mem_cons_of_mem op hop')

end Context
end InfoFlow

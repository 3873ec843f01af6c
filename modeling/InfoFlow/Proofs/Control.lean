import InfoFlow.Proofs.Quiet

/-! # Where control is

The open regions and the running scripts make up the control state of a context. What an operation does
to it depends on the control state itself and on who is a policy origin, and on nothing else. -/

namespace InfoFlow

structure Control where
  stack : Stack
  scripts : List String
deriving DecidableEq

def Context.control (c : Context) : Control := ⟨c.stack, c.scripts⟩

/-- An exception leaves the regions inside its handler and makes the handler an ordinary region under the
label that governed the throw. -/
def Stack.throwException (s : Stack) (exception : Label) : Stack :=
  if s.unwind.top.exceptionEdge then
    s.unwind.joinHandlers (s.head.join exception) s.unwind.top.functionHandler false
  else s.unwind

namespace Control

def onStack (k : Control) (f : Stack → Stack) : Control := { k with stack := f k.stack }

/-- The script of a URL starts; those of policy origins are privileged. -/
def enterScript (privileged : String → Bool) (k : Control) (url : String) : Control where
  stack :=
    if privileged url then k.stack.push (.plain .policy .scriptExit)
    else k.stack.pushWithout (.plain .bottom .scriptExit) .policy
  scripts := url :: k.scripts

def exitScript (k : Control) : Control :=
  match k.scripts with
  | [] => k
  | _ :: scripts => ⟨k.stack.leaveScript, scripts⟩

/-- Control arrives at a loop's header, for the first time or again. -/
def loopHeader (k : Control) (condition : Label) (exit : Location) : Control :=
  if k.stack.isLoopAt exit then k.onStack (·.join condition)
  else k.onStack (·.push { Region.branch condition exit none with loopEdge := some true })

/-- What a hook does to the control state. -/
def step (privileged : String → Bool) (k : Control) : Step → Control
  | .enterScript url => k.enterScript privileged url
  | .exitScript => k.exitScript
  | .branch condition exit guardRegister =>
    k.onStack (·.push { Region.branch condition exit guardRegister with
      functionHandler := k.stack.top.functionHandler })
  | .call callee returnsTo functionHandler =>
    k.onStack (·.push { Region.plain callee returnsTo with functionHandler, loopEdge := some false })
  | .loopHeader condition exit => k.loopHeader condition exit
  | .exceptionRegion exit =>
    k.onStack (·.push { Region.plain .bottom exit with exceptionEdge := true, functionHandler := true })
  | .reach location => k.onStack (·.closeAt location)
  | .throwException exception => k.onStack (·.throwException exception)
  | .join label => k.onStack (·.join label)
  | .returnValue _ | .write _ _ => k

def perform (privileged : String → Bool) (k : Control) : Operation → Control
  | .hook step => k.step privileged step
  | .push region => k.onStack (·.push region)
  | .pop => k.onStack (·.leave)
  | .joinHandlers label functionHandler exceptionEdge =>
    k.onStack (·.joinHandlers label functionHandler exceptionEdge)
  | .joinBranch label branchEdge => k.onStack (·.joinBranch label branchEdge)
  | .setLoop loopEdge => k.onStack (·.setLoop loopEdge)
  | _ => k

theorem perform_of_quiet {privileged : String → Bool} {k : Control} {op : Operation} (h : op.isQuiet = true) :
    k.perform privileged op = k := by
  cases op with
  | hook | push | pop | joinHandlers | joinBranch | setLoop => cases h
  | _ => rfl

end Control

namespace Context

variable {c d : Context}

theorem Quiet.control (h : Quiet c d) : d.control = c.control := by
  unfold Context.control
  rw [h.stack, h.scripts]

theorem control_enterScript (c : Context) (url : String) :
    (c.enterScript url).2.control = c.control.enterScript c.registry.isPolicyOrigin url := by
  unfold enterScript Control.enterScript
  cases c.registry.isPolicyOrigin url <;> rfl

theorem control_exitScript (c : Context) : c.exitScript.2.control = c.control.exitScript := by
  obtain ⟨stack, registry, table, globals, log, scripts⟩ := c
  cases scripts <;> rfl

theorem control_loopHeader (c : Context) (condition : Label) (exit : Location) :
    (c.loopHeader condition exit).2.control = c.control.loopHeader condition exit := by
  have hloop : c.control.stack.isLoopAt exit = c.stack.isLoopAt exit := rfl
  unfold loopHeader Control.loopHeader
  rw [hloop]
  split <;> rfl

theorem control_throwException (c : Context) (exception : Label) :
    (c.throwException exception).2.control = c.control.onStack (·.throwException exception) := rfl

/-- A write leaves the control state as it is, whether it is blocked or not. -/
theorem quiet_write (c : Context) (existing value : Label) : Quiet c (c.apply (.write existing value)).2 := by
  have h := quiet_checkedWrite c existing value
  simp only [apply]
  split <;> simp_all

/-- The answer to a hook: writes may be refused, as the mode and the program counter before decide. -/
theorem answer_apply (c : Context) (step : Step) :
    (c.apply step).1 =
      match step with
      | .write existing _ =>
        if c.globals.mode.permits c.pc existing then .ok c.pc else .error (.sensitiveUpgrade c.pc existing)
      | _ => .ok (c.apply step).2.pc := by
  cases step with
  | write existing value =>
    simp only [apply, checkedWrite, guardUpgrade]
    by_cases hpermits : c.globals.mode.permits c.pc existing = true
    · simp only [hpermits, if_true]
    · simp only [hpermits, Bool.false_eq_true, if_false]
  | _ => rfl

/-- The hooks act on the control state as `Control.step` says. -/
theorem control_apply (c : Context) (step : Step) :
    (c.apply step).2.control = c.control.step c.registry.isPolicyOrigin step := by
  cases step with
  | enterScript url => exact control_enterScript c url
  | exitScript => exact control_exitScript c
  | loopHeader condition exit => exact control_loopHeader c condition exit
  | write existing value => exact (quiet_write c existing value).control
  | throwException exception => exact control_throwException c exception
  | branch condition exit guardRegister => rfl
  | call callee returnsTo functionHandler => rfl
  | exceptionRegion exit => rfl
  | reach location => rfl
  | returnValue value => rfl
  | join label => rfl

theorem stack_apply (c : Context) (step : Step) :
    (c.apply step).2.stack = (c.control.step c.registry.isPolicyOrigin step).stack :=
  congrArg Control.stack (control_apply c step)

/-- A hook keeps the mode and the policy origins. -/
theorem apply_keeps (c : Context) (step : Step) :
    (c.apply step).2.globals.mode = c.globals.mode ∧
      (c.apply step).2.registry.policyOrigins = c.registry.policyOrigins := by
  cases step with
  | enterScript url =>
    have hlabel : (c.originLabel url).2.registry.policyOrigins = c.registry.policyOrigins :=
      (quiet_originLabel c url).policyOrigins
    simp only [apply, enterScript]
    cases c.registry.isPolicyOrigin url with
    | true => exact ⟨rfl, rfl⟩
    | false => exact ⟨rfl, hlabel⟩
  | exitScript =>
    simp only [apply, exitScript]
    split <;> exact ⟨rfl, rfl⟩
  | loopHeader condition exit =>
    simp only [apply, loopHeader]
    split <;> exact ⟨rfl, rfl⟩
  | write existing value => exact ⟨(quiet_write c existing value).mode, (quiet_write c existing value).policyOrigins⟩
  | _ => exact ⟨rfl, rfl⟩

theorem isPolicyOrigin_apply (c : Context) (step : Step) :
    (c.apply step).2.registry.isPolicyOrigin = c.registry.isPolicyOrigin :=
  Origin.Registry.isPolicyOrigin_congr (apply_keeps c step).2

/-! ### All operations -/

theorem registerOrigin_keeps (c : Context) (url : String) (asPolicy : Bool) :
    (c.registerOrigin url asPolicy).2.control = c.control ∧
      (c.registerOrigin url asPolicy).2.globals.mode = c.globals.mode ∧
      c.registry.policyOrigins ⊆ (c.registerOrigin url asPolicy).2.registry.policyOrigins :=
  ⟨rfl, rfl, Origin.Registry.policyOrigins_put⟩

theorem scriptSource_keeps (c : Context) (url : String) (isManifest : Bool) :
    (c.scriptSource url isManifest).2.control = c.control ∧
      (c.scriptSource url isManifest).2.globals.mode = c.globals.mode ∧
      c.registry.policyOrigins ⊆ (c.scriptSource url isManifest).2.registry.policyOrigins := by
  have h := registerOrigin_keeps c url isManifest
  unfold scriptSource
  split
  rename_i answer d hd
  rw [hd] at h
  split
  · exact h
  · obtain ⟨hcontrol, hmode, horigins⟩ := h
    exact ⟨hcontrol, hmode, horigins⟩

/-- The operations act on the control state as `Control.perform` says. -/
theorem control_perform (c : Context) (op : Operation) :
    (c.perform op).control = c.control.perform c.registry.isPolicyOrigin op := by
  by_cases hquiet : op.isQuiet = true
  · rw [(quiet_perform c hquiet).control, Control.perform_of_quiet hquiet]
  · cases op with
    | hook step => exact control_apply c step
    | scriptSource url isManifest => exact (scriptSource_keeps c url isManifest).1
    | registerOrigin | setEnforcement | push | pop | joinHandlers | joinBranch | setLoop => rfl
    | _ => exact absurd rfl hquiet

/-- Nothing but `setEnforcement` changes the mode. -/
theorem mode_perform (c : Context) {op : Operation} (h : ∀ mode, op ≠ .setEnforcement mode) :
    (c.perform op).globals.mode = c.globals.mode := by
  by_cases hquiet : op.isQuiet = true
  · exact (quiet_perform c hquiet).mode
  · cases op with
    | hook step => exact (apply_keeps c step).1
    | scriptSource url isManifest => exact (scriptSource_keeps c url isManifest).2.1
    | setEnforcement mode => exact absurd rfl (h mode)
    | registerOrigin | push | pop | joinHandlers | joinBranch | setLoop => rfl
    | _ => exact absurd rfl hquiet

/-- Who is a policy origin stays one. -/
theorem policyOrigins_perform (c : Context) (op : Operation) :
    c.registry.policyOrigins ⊆ (c.perform op).registry.policyOrigins := by
  have of_eq {d : Context} (h : d.registry.policyOrigins = c.registry.policyOrigins) :
      c.registry.policyOrigins ⊆ d.registry.policyOrigins := by
    rw [h]
    exact List.Subset.refl _
  by_cases hquiet : op.isQuiet = true
  · exact of_eq (quiet_perform c hquiet).policyOrigins
  · cases op with
    | hook step => exact of_eq (apply_keeps c step).2
    | registerOrigin url asPolicy => exact (registerOrigin_keeps c url asPolicy).2.2
    | scriptSource url isManifest => exact (scriptSource_keeps c url isManifest).2.2
    | setEnforcement | push | pop | joinHandlers | joinBranch | setLoop => exact of_eq rfl
    | _ => exact absurd rfl hquiet

end Context
end InfoFlow

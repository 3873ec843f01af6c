import InfoFlow.Proofs.Openers

/-! # The handler mark inside loops

The frame of a call carries whether the function has an exception handler, and a branch hands this mark on to its
region. The header of a loop does not: the region that it opens has no such mark, and neither have the branches
inside it. So in a function with a handler the mark is missing for as long as a loop is open, and it is back when
all loops are left. -/

namespace InfoFlow

/-- The hook enters or leaves conditional regions, or raises the innermost one. -/
def Step.isConditional : Step → Bool
  | .branch _ _ _ | .loopHeader _ _ | .reach _ | .join _ => true
  | _ => false

/-- Of the conditional regions only those of loops change the mark, and they take it away. -/
theorem Step.foldr_handlerMark {openers : List Step} (h : ∀ step ∈ openers, step.isConditional = true)
    (functionHandler : Bool) :
    openers.foldr Step.handlerMark functionHandler = (functionHandler && !openers.any Step.isLoopHeader) := by
  induction openers with
  | nil => exact (Bool.and_true functionHandler).symm
  | cons step rest ih =>
    have hrest := ih fun other hother => h other (List.mem_cons_of_mem step hother)
    have hstep := h step List.mem_cons_self
    rw [List.foldr_cons, List.any_cons, hrest]
    cases step with
    | branch | reach | join => rfl
    | loopHeader => exact (Bool.and_false functionHandler).symm
    | enterScript | exitScript | call | exceptionRegion | throwException | returnValue | write => cases hstep

namespace Context

theorem functionHandler_loopHeader (c : Context) (condition : Label) (exit : Location) :
    (c.loopHeader condition exit).2.stack.top.functionHandler =
      (c.stack.top.functionHandler && c.stack.isLoopAt exit) := by
  unfold loopHeader
  split
  · rename_i hloop
    rw [hloop, Bool.and_true]
    rfl
  · rename_i hloop
    rw [Bool.eq_false_iff.mpr hloop, Bool.and_false]
    rfl

/-- A branch leaves the mark as it is, a loop's header only if it opens no region or there is no mark. While control
stays inside a call and passes conditional regions, the mark is that of the call as long as no loop is open. -/
theorem handler_mark_in_function (c : Context) :
    (∀ condition exit guardRegister,
        (c.branch condition exit guardRegister).2.stack.top.functionHandler = c.stack.top.functionHandler) ∧
      (∀ condition exit, (c.loopHeader condition exit).2.stack.top.functionHandler =
        (c.stack.top.functionHandler && c.stack.isLoopAt exit)) ∧
      ∀ (callee : Label) (returnsTo : Location) (functionHandler : Bool) (steps : List Step),
        (∀ step ∈ steps, step.isConditional = true) →
        (∀ d ∈ (c.call callee returnsTo functionHandler).2.states (steps.map .hook), c.stack.depth < d.stack.depth) →
        ((c.call callee returnsTo functionHandler).2.replay steps).stack.top.functionHandler =
          (functionHandler &&
            !((c.call callee returnsTo functionHandler).2.openers [] steps).any Step.isLoopHeader) := by
  refine ⟨fun _ _ _ => rfl, c.functionHandler_loopHeader, ?_⟩
  intro callee returnsTo functionHandler steps hsteps hinside
  have hcall : (c.call callee returnsTo functionHandler).2.stack.Opened false functionHandler
      (c.stack.top :: c.stack.below) [] := .root rfl rfl
  have hopened := opened_replay hcall hinside
  have hopeners : ∀ step ∈ (c.call callee returnsTo functionHandler).2.openers [] steps,
      step.isConditional = true := by
    intro step hstep
    rcases mem_openers hstep with hknown | htrace
    · cases hknown
    · exact hsteps step htrace
  rw [hopened.marks.2, Step.foldr_handlerMark hopeners]

/-- A branch, a loop with a branch inside, which is left again, and another branch. -/
def pastLoop : List Step :=
  [.branch .secret 40 none, .loopHeader .bottom 30, .branch .bottom 20 none, .join .secret, .reach 20, .reach 30,
    .branch .bottom 25 none]

theorem handler_mark_past_loop :
    (∀ step ∈ pastLoop, step.isConditional = true) ∧
      (∀ d ∈ ((ofConfig {}).call .bottom 7 true).2.states (pastLoop.map .hook),
        (ofConfig {}).stack.depth < d.stack.depth) ∧
      (((ofConfig {}).call .bottom 7 true).2.replay pastLoop).stack.top.functionHandler = true := by
  have hsteps : ∀ step ∈ pastLoop, step.isConditional = true := by decide
  have hinside : ∀ d ∈ ((ofConfig {}).call .bottom 7 true).2.states (pastLoop.map .hook),
      (ofConfig {}).stack.depth < d.stack.depth := by decide
  have hmark := (handler_mark_in_function (ofConfig {})).2.2 .bottom 7 true pastLoop hsteps hinside
  exact ⟨hsteps, hinside, hmark.trans (by decide)⟩

/-- The header of a loop and a branch inside it hide the handler of the function that they stand in. -/
theorem loop_hides_handler :
    ((ofConfig {}).call .bottom 7 true).2.stack.top.functionHandler = true ∧
      (((ofConfig {}).call .bottom 7 true).2.loopHeader .bottom 30).2.stack.top.functionHandler = false ∧
      (((ofConfig {}).call .bottom 7 true).2.replay
        [.loopHeader .bottom 30, .branch .bottom 20 none]).stack.top.functionHandler = false := by
  decide

end Context
end InfoFlow

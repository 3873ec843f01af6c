import InfoFlow.Proofs.Isolation

/-! # Merge points

Where all paths through a branch meet again, nothing tells which of them was taken: the regions and the
running scripts are those that reaching the merge point without the branch would leave. What else differs
after the arms, the registries, the log and the rest of the globals, takes no part in the answers to
hooks. -/

namespace InfoFlow
namespace Stack

/-- A region that ends at the location it reaches is left, and then the regions around it are. -/
theorem closeAt_cons {s : Stack} {f : Frame} {location : Location} (h : f.exit = location) :
    closeAt ⟨f, s.top :: s.below⟩ location = s.closeAt location := by
  simp [closeAt, leaveWhile, h]

end Stack

namespace Context

variable {c d : Context} {step : Step}

/-! ### Contexts that answer alike -/

/-- A hook acts alike on contexts that differ only beside the control flow. -/
theorem Quiet.apply (h : Quiet c d) (step : Step) : Quiet (c.apply step).2 (d.apply step).2 := by
  have hcontrol : (d.apply step).2.control = (c.apply step).2.control := by
    rw [control_apply, control_apply, h.control, h.isPolicyOrigin]
  obtain ⟨hmode, horigins⟩ := apply_keeps c step
  obtain ⟨hmode', horigins'⟩ := apply_keeps d step
  refine ⟨congrArg Control.stack hcontrol, congrArg Control.scripts hcontrol, ?_, ?_⟩
  · rw [hmode, hmode', h.mode]
  · rw [horigins, horigins', h.policyOrigins]

theorem Quiet.answer (h : Quiet c d) (step : Step) : (d.apply step).1 = (c.apply step).1 := by
  have hpc := (h.apply step).pc
  rw [answer_apply, answer_apply]
  cases step with
  | write existing value => simp only [h.mode, h.pc]
  | _ => exact congrArg Except.ok hpc

theorem Quiet.answers (h : Quiet c d) (steps : List Step) : d.answers steps = c.answers steps := by
  induction steps generalizing c d with
  | nil => rfl
  | cons step rest ih =>
    simp only [Context.answers]
    rw [h.answer step, ih (h.apply step)]

theorem replay_keeps (c : Context) (steps : List Step) :
    (c.replay steps).globals.mode = c.globals.mode ∧
      (c.replay steps).registry.policyOrigins = c.registry.policyOrigins := by
  induction steps generalizing c with
  | nil => exact ⟨rfl, rfl⟩
  | cons step rest ih =>
    obtain ⟨hmode, horigins⟩ := ih (c.apply step).2
    exact ⟨hmode.trans (apply_keeps c step).1, horigins.trans (apply_keeps c step).2⟩

/-! ### The arms of a branch -/

/-- The steps of one path through the branch that opened the innermost region of `c`: that region stays
open all along, and at the end no region is open inside it. -/
structure Arm (c : Context) (steps : List Step) : Prop where
  locations : ∀ step ∈ steps, step.location? ≠ some .scriptExit
  inside : ∀ d ∈ c.states (steps.map .hook), c.stack.depth ≤ d.stack.depth
  closed : (c.replay steps).stack.depth = c.stack.depth

/-- At the end of an arm the innermost region ends where it did, and what is around it is unchanged. -/
theorem Arm.restored {steps : List Step} (arm : Arm c steps) (hopen : c.stack.below ≠ []) :
    ∃ f : Frame, f.exit = c.stack.top.exit ∧ (c.replay steps).control = ⟨⟨f, c.stack.below⟩, c.scripts⟩ := by
  have hnested : ∀ d ∈ c.states (steps.map .hook),
      d.control.NestedIn (fun _ _ => True) c.stack.top.exit c.stack.below c.scripts := by
    refine states_of_kept (Q := fun d => c.stack.depth ≤ d.stack.depth) (Nested.root rfl trivial) arm.inside ?_
    intro d hd op hop hinside
    obtain ⟨step, hstep, rfl⟩ := List.mem_map.mp hop
    have hdepth : c.stack.below.length ≤ (d.control.step d.registry.isPolicyOrigin step).stack.depth := by
      rw [← control_apply]
      exact hinside
    rw [perform_hook, control_apply]
    exact hd.step (ownership_any _) (fun hnil => absurd hnil hopen) (fun _ _ _ => trivial)
      (arm.locations step hstep) (Or.inr hdepth)
  exact (hnested _ run_mem_states).eq_root arm.closed

/-- The context in which the arms of a branch have met again, after one of them was taken. -/
def merged (c : Context) (condition : Label) (merge : Location) (guardRegister : Option Register)
    (arm : List Step) : Context :=
  c.replay (.branch condition merge guardRegister :: (arm ++ [.reach merge]))

variable {condition : Label} {merge : Location} {guardRegister : Option Register} {arm left right : List Step}

/-- The merge point is reached in the control state in which it would be without the branch. -/
theorem control_merged (taken : Arm (c.branch condition merge guardRegister).2 arm) :
    (c.merged condition merge guardRegister arm).control = c.control.onStack (·.closeAt merge) := by
  obtain ⟨f, hf, hcontrol⟩ := taken.restored (List.cons_ne_nil _ _)
  unfold merged
  rw [replay_cons, replay_append, replay_cons, replay_nil, control_apply]
  show ((c.branch condition merge guardRegister).2.replay arm).control.onStack (·.closeAt merge) =
    c.control.onStack (·.closeAt merge)
  rw [hcontrol]
  exact congrArg (Control.mk · c.scripts) (Stack.closeAt_cons hf)

theorem quiet_merged (hleft : Arm (c.branch condition merge guardRegister).2 left)
    (hright : Arm (c.branch condition merge guardRegister).2 right) :
    Quiet (c.merged condition merge guardRegister left) (c.merged condition merge guardRegister right) := by
  have hcontrol := (control_merged hright).trans (control_merged hleft).symm
  obtain ⟨hmode, horigins⟩ := replay_keeps c (.branch condition merge guardRegister :: (left ++ [.reach merge]))
  obtain ⟨hmode', horigins'⟩ := replay_keeps c (.branch condition merge guardRegister :: (right ++ [.reach merge]))
  exact ⟨congrArg Control.stack hcontrol, congrArg Control.scripts hcontrol, hmode'.trans hmode.symm,
    horigins'.trans horigins.symm⟩

/-- After a merge point the regions, the running scripts and the answers to all further hooks do not depend
on which arm of the branch was taken. -/
theorem merge_forgets_arm (c : Context) (condition : Label) (merge : Location) (guardRegister : Option Register)
    (left right : List Step) (hleft : Arm (c.branch condition merge guardRegister).2 left)
    (hright : Arm (c.branch condition merge guardRegister).2 right) :
    (c.merged condition merge guardRegister left).stack = (c.merged condition merge guardRegister right).stack ∧
      (c.merged condition merge guardRegister left).scripts =
        (c.merged condition merge guardRegister right).scripts ∧
      ∀ rest : List Step, (c.merged condition merge guardRegister left).answers rest =
        (c.merged condition merge guardRegister right).answers rest := by
  have h := quiet_merged hleft hright
  exact ⟨h.stack.symm, h.scripts.symm, fun rest => (h.answers rest).symm⟩

/-- One arm starts a script that throws and leaves regions open; in the other a write is refused. -/
theorem merge_forgets_arm_taken :
    Arm ((ofConfig {}).branch .secret 9 none).2
        [.enterScript "a", .exceptionRegion 9, .branch .secret 12 none, .throwException .secret, .exitScript] ∧
      Arm ((ofConfig {}).branch .secret 9 none).2
        [.exceptionRegion 20, .write .bottom .bottom, .throwException .bottom, .reach 20] ∧
      ((ofConfig {}).merged .secret 9 none
        [.enterScript "a", .exceptionRegion 9, .branch .secret 12 none, .throwException .secret,
          .exitScript]).answers [.enterScript "b", .branch .secret 4 none, .write .bottom .bottom] =
      ((ofConfig {}).merged .secret 9 none
        [.exceptionRegion 20, .write .bottom .bottom, .throwException .bottom, .reach 20]).answers
          [.enterScript "b", .branch .secret 4 none, .write .bottom .bottom] := by
  have hleft : Arm ((ofConfig {}).branch .secret 9 none).2
      [.enterScript "a", .exceptionRegion 9, .branch .secret 12 none, .throwException .secret, .exitScript] :=
    ⟨by decide, by decide, by decide⟩
  have hright : Arm ((ofConfig {}).branch .secret 9 none).2
      [.exceptionRegion 20, .write .bottom .bottom, .throwException .bottom, .reach 20] :=
    ⟨by decide, by decide, by decide⟩
  exact ⟨hleft, hright, (merge_forgets_arm _ .secret 9 none _ _ hleft hright).2.2 _⟩

end Context
end InfoFlow

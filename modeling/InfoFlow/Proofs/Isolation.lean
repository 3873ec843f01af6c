import InfoFlow.Proofs.Nesting

/-! # Scripts leave no trace on the stack

A script may start others, leave regions open, throw and reach any location: when it ends, the regions
and the running scripts are those from before its start. The frame of the script stops everything that
leaves regions, and the scripts started inside have ended before it. -/

namespace InfoFlow

def Step.isEnter : Step → Bool
  | .enterScript _ => true
  | _ => false

def Step.isExit : Step → Bool
  | .exitScript => true
  | _ => false

/-- Every script that a trace ends was started in it before, and every script that it starts it ends. -/
structure Balanced (steps : List Step) : Prop where
  prefixes : ∀ n ≤ steps.length, (steps.take n).countP Step.isExit ≤ (steps.take n).countP Step.isEnter
  total : steps.countP Step.isExit = steps.countP Step.isEnter

theorem ownership_any (privileged : String → Bool) : Ownership privileged fun _ _ => True where
  join := fun _ _ => trivial
  bottom := fun _ => trivial
  stripped := fun _ _ => trivial
  privileged := fun _ _ _ => trivial

namespace Control

theorem length_scripts_step (privileged : String → Bool) (k : Control) (step : Step)
    (h : step.isExit = true → 0 < k.scripts.length) :
    (k.step privileged step).scripts.length + (if step.isExit then 1 else 0) =
      k.scripts.length + (if step.isEnter then 1 else 0) := by
  obtain ⟨s, scripts⟩ := k
  cases step with
  | enterScript url => rfl
  | exitScript =>
    cases scripts with
    | nil => exact absurd (h rfl) (Nat.lt_irrefl 0)
    | cons url scripts => rfl
  | loopHeader condition exit =>
    simp only [step, loopHeader]
    split <;> rfl
  | _ => rfl

end Control

namespace Context

variable {c : Context} {base : List Frame} {outer : List String}

/-- While a trace inside a script ends no more scripts than it starts, it stays above the frame of the
script, and the scripts started and not ended are the ones that run in addition. -/
theorem nested_replay {steps : List Step} {n : Nat}
    (h : c.control.NestedIn (fun _ _ => True) .scriptExit base outer) (hbase : base ≠ [])
    (hlength : c.scripts.length = outer.length + n)
    (prefixes : ∀ m ≤ steps.length,
      (steps.take m).countP Step.isExit ≤ n + (steps.take m).countP Step.isEnter)
    (locations : ∀ step ∈ steps, step.location? ≠ some .scriptExit) :
    (c.replay steps).control.NestedIn (fun _ _ => True) .scriptExit base outer ∧
      (c.replay steps).scripts.length + steps.countP Step.isExit =
        outer.length + n + steps.countP Step.isEnter := by
  induction steps generalizing c n with
  | nil => exact ⟨h, by simpa using hlength⟩
  | cons step rest ih =>
    have hfirst : (if step.isExit then 1 else 0) ≤ n + (if step.isEnter then 1 else 0) := by
      simpa [List.countP_cons] using prefixes 1 (Nat.le_add_left 1 rest.length)
    -- An exit is no enter, so a script runs that was started inside.
    have hinside : step.isExit = true → 1 ≤ n := fun hexit => by
      have henter : step.isEnter = false := by
        cases step <;> first | rfl | cases hexit
      rw [hexit, henter] at hfirst
      simpa using hfirst
    have hrunning : step.isExit = true → 0 < c.scripts.length := fun hexit => by
      have hpos := hinside hexit
      omega
    have hscripts := Control.length_scripts_step c.registry.isPolicyOrigin c.control step hrunning
    have hnested : (c.apply step).2.control.NestedIn (fun _ _ => True) .scriptExit base outer := by
      rw [control_apply]
      refine h.step (ownership_any _) (fun hnil => absurd hnil hbase) (fun _ _ _ => trivial)
        (locations step List.mem_cons_self) (Or.inl ⟨rfl, fun hexit => ?_⟩)
      have hpos := hinside (hexit ▸ rfl)
      show outer.length < c.scripts.length
      omega
    rw [← control_apply] at hscripts
    have hnext : (c.apply step).2.scripts.length + (if step.isExit then 1 else 0) =
        outer.length + n + (if step.isEnter then 1 else 0) := hlength ▸ hscripts
    have hrest := ih (n := n + (if step.isEnter then 1 else 0) - (if step.isExit then 1 else 0)) hnested
      (by omega) (fun m hm => ?_) (fun step' hstep' => locations step' (List.mem_cons_of_mem step hstep'))
    · refine ⟨hrest.1, ?_⟩
      have htotal := hrest.2
      rw [replay_cons, List.countP_cons, List.countP_cons]
      omega
    · have hm' := prefixes (m + 1) (Nat.succ_le_succ hm)
      rw [List.take_succ_cons, List.countP_cons, List.countP_cons] at hm'
      omega

/-- A script that starts, runs a balanced trace and ends leaves the regions, the running scripts and the
program counter as they were. -/
theorem script_isolated (c : Context) (url : String) (steps : List Step) (balanced : Balanced steps)
    (locations : ∀ step ∈ steps, step.location? ≠ some .scriptExit) :
    (c.replay (.enterScript url :: (steps ++ [.exitScript]))).stack = c.stack ∧
      (c.replay (.enterScript url :: (steps ++ [.exitScript]))).scripts = c.scripts ∧
      (c.replay (.enterScript url :: (steps ++ [.exitScript]))).pc = c.pc := by
  suffices restored : (c.replay (.enterScript url :: (steps ++ [.exitScript]))).control = c.control from
    ⟨congrArg Control.stack restored, congrArg Control.scripts restored,
      congrArg (fun k => k.stack.head) restored⟩
  have hentered : (c.apply (.enterScript url)).2.control.NestedIn (fun _ _ => True) .scriptExit
      (c.stack.top :: c.stack.below) (url :: c.scripts) := by
    rw [control_apply]
    show (c.control.enterScript _ url).NestedIn _ _ _ _
    unfold Control.enterScript
    split <;> exact Nested.root rfl trivial
  have hscripts : (c.apply (.enterScript url)).2.scripts.length = (url :: c.scripts).length + 0 :=
    congrArg (fun k => k.scripts.length) (control_apply c (.enterScript url))
  obtain ⟨hnested, hlength⟩ := nested_replay hentered (List.cons_ne_nil _ _) hscripts
    (fun n hn => by rw [Nat.zero_add]; exact balanced.prefixes n hn) locations
  have hlast : ((c.apply (.enterScript url)).2.replay steps).scripts.length = (url :: c.scripts).length := by
    have htotal := balanced.total
    omega
  obtain ⟨houter, hleft⟩ := Nested.leaveScript_root hnested hlast rfl
  rw [replay_cons, replay_append, replay_cons, replay_nil, control_apply]
  show ((c.apply (.enterScript url)).2.replay steps).control.exitScript = c.control
  unfold Control.exitScript
  rw [houter]
  exact congrArg (Control.mk · c.scripts) hleft

/-- The inner script leaves regions open, reaches the end of the outer script's branch and throws. -/
theorem script_isolated_nested :
    Balanced [.exceptionRegion 20, .enterScript "b", .branch .secret 12 none, .reach 12, .loopHeader .secret 9,
        .throwException .secret, .exitScript, .throwException .bottom, .call .secret 12 true] ∧
      (((ofConfig {}).branch .secret 12 none).2.replay (.enterScript "a" ::
        ([.exceptionRegion 20, .enterScript "b", .branch .secret 12 none, .reach 12, .loopHeader .secret 9,
          .throwException .secret, .exitScript, .throwException .bottom, .call .secret 12 true] ++
          [.exitScript]))).stack = ((ofConfig {}).branch .secret 12 none).2.stack := by
  have balanced : Balanced [.exceptionRegion 20, .enterScript "b", .branch .secret 12 none, .reach 12,
      .loopHeader .secret 9, .throwException .secret, .exitScript, .throwException .bottom,
      .call .secret 12 true] := ⟨by decide, by decide⟩
  exact ⟨balanced, (script_isolated _ "a" _ balanced (by decide)).1⟩

end Context
end InfoFlow

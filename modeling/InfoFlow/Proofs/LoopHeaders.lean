import InfoFlow.Proofs.Ascent
import InfoFlow.Proofs.Merge

/-! # Loops that open a region again

A loop's header opens a region at the first arrival only, and later arrivals join their condition into the
innermost frame. That frame need not be a loop's own: branches, protected blocks and scripts inherit the
mark by which a loop is known. Still nobody can tell the difference: hooks that open a region at every
arrival keep a deeper stack with the same program counter.

The two stacks are related frame by frame, except that one frame may stand for itself and the regions opened
again above it. All of them end at one location, so they are left together. An exception that is caught
under them leaves them for the frame that they stand on, and what they added to its label is in the label
that governed the throw. -/

namespace InfoFlow

def Region.loop (condition : Label) (exit : Location) : Region :=
  { Region.branch condition exit none with loopEdge := some true }

/-! ### Hooks that open a region at every arrival -/

namespace Control

/-- What a hook does to the control state where loops are opened again. -/
def stepUnrolled (privileged : String → Bool) (k : Control) : Step → Control
  | .loopHeader condition exit => k.onStack (·.push (.loop condition exit))
  | step => k.step privileged step

theorem ascending_stepUnrolled {privileged : String → Bool} {k : Control} (step : Step) (h : k.stack.Ascending) :
    (k.stepUnrolled privileged step).stack.Ascending := by
  cases step with
  | loopHeader condition exit => exact h.push _
  | _ => exact ascending_step _ h

end Control

namespace Context

def applyUnrolled (c : Context) : Step → Except PolicyError Label × Context
  | .loopHeader condition exit => let c := (c.push (.loop condition exit)).2; (.ok c.pc, c)
  | step => c.apply step

def replayUnrolled (c : Context) (trace : List Step) : Context :=
  trace.foldl (fun c step => (c.applyUnrolled step).2) c

def answersUnrolled (c : Context) : List Step → List (Except PolicyError Label)
  | [] => []
  | step :: trace => (c.applyUnrolled step).1 :: (c.applyUnrolled step).2.answersUnrolled trace

theorem control_applyUnrolled (c : Context) (step : Step) :
    (c.applyUnrolled step).2.control = c.control.stepUnrolled c.registry.isPolicyOrigin step := by
  cases step with
  | loopHeader condition exit => rfl
  | _ => exact control_apply c _

theorem applyUnrolled_keeps (c : Context) (step : Step) :
    (c.applyUnrolled step).2.globals.mode = c.globals.mode ∧
      (c.applyUnrolled step).2.registry.policyOrigins = c.registry.policyOrigins := by
  cases step with
  | loopHeader condition exit => exact ⟨rfl, rfl⟩
  | _ => exact apply_keeps c _

end Context

/-! ### Stacks with regions opened again -/

structure SameRegion (f g : Frame) : Prop where
  label : f.label = g.label
  exit : f.exit = g.exit
  exceptionEdge : f.exceptionEdge = g.exceptionEdge

namespace Stack

/-- The second stack may have more regions than the first one: those that a loop has opened again. -/
inductive Unrolls : Stack → Stack → Prop where
  | root {f g : Frame} : f.loopEdge = false → SameRegion f g → Unrolls ⟨f, []⟩ ⟨g, []⟩
  | region {f g : Frame} {s t : Stack} : SameRegion f g → Unrolls s t →
      Unrolls ⟨f, s.top :: s.below⟩ ⟨g, t.top :: t.below⟩
  /-- The frame `g` opens the region of `f` again, and `f` takes in what `g` has. -/
  | again {f g outer : Frame} {rest : List Frame} {t : Stack} : g.exit = f.exit → g.exit ≠ .scriptExit →
      g.exceptionEdge = false → Unrolls ⟨f, outer :: rest⟩ t →
      Unrolls ⟨{ f with label := g.label }, outer :: rest⟩ ⟨g, t.top :: t.below⟩

variable {s t : Stack}

/-- What an exception leaves of two stacks: a frame that catches it has one in the other stack that does
so, and there the two stacks are related once the handlers run under one label. -/
structure Landing (s t : Stack) : Prop where
  caught : s.top.exceptionEdge = t.top.exceptionEdge
  uncaught : s.top.exceptionEdge = false → Unrolls s t
  handler : ∀ label, Unrolls (s.startHandler label) (t.startHandler label)

namespace Unrolls

theorem head (h : Unrolls s t) : s.head = t.head := by
  cases h with
  | root _ hfg => exact hfg.label
  | region hfg _ => exact hfg.label
  | again => rfl

/-- A frame that is marked as a loop's is not the outermost one. -/
theorem below_ne_nil (h : Unrolls s t) (hloop : s.top.loopEdge = true) : s.below ≠ [] := by
  cases h with
  | root hroot _ =>
    rw [hroot] at hloop
    cases hloop
  | region => exact List.cons_ne_nil _ _
  | again => exact List.cons_ne_nil _ _

theorem join (h : Unrolls s t) (label : Label) : Unrolls (s.join label) (t.join label) := by
  cases h with
  | root hroot hfg => exact .root hroot ⟨congrArg (·.join label) hfg.label, hfg.exit, hfg.exceptionEdge⟩
  | region hfg hst => exact .region ⟨congrArg (·.join label) hfg.label, hfg.exit, hfg.exceptionEdge⟩ hst
  | @again f g outer rest t hexit hscript hedge hst =>
    exact .again (f := f) (g := { g with label := g.label.join label }) hexit hscript hedge hst

/-- At a later arrival the one stack takes in the condition and the other one opens a region. -/
theorem reenter (h : Unrolls s t) {condition : Label} {exit : Location} (hloop : s.isLoopAt exit = true)
    (hscript : exit ≠ .scriptExit) : Unrolls (s.join condition) (t.push (.loop condition exit)) := by
  obtain ⟨hmark, hexit⟩ := Bool.and_eq_true_iff.mp hloop
  obtain ⟨top, below⟩ := s
  cases below with
  | nil => exact absurd rfl (h.below_ne_nil hmark)
  | cons outer rest =>
    have hagain := Unrolls.again (g := (Region.loop condition exit).frame t.top t.head)
      (beq_iff_eq.mp hexit).symm hscript rfl h
    have hlabel : ((Region.loop condition exit).frame t.top t.head).label = top.label.join condition :=
      congrArg (·.join condition) h.head.symm
    rwa [hlabel] at hagain

theorem leaveWhile {p : Frame → Bool} (hp : ∀ f g : Frame, f.exit = g.exit → p f = p g) (h : Unrolls s t) :
    Unrolls (Stack.leaveWhile p s.top s.below) (Stack.leaveWhile p t.top t.below) := by
  induction h with
  | root hroot hfg => exact .root hroot hfg
  | @region f g s t hfg hst ih =>
    simp only [Stack.leaveWhile, hp f g hfg.exit]
    split
    · exact ih
    · exact .region hfg hst
  | @again f g outer rest t hexit hscript hedge hst ih =>
    -- The frame of `f` goes exactly if `g` goes, and then the rest of both stacks is left as without `g`.
    simp only [Stack.leaveWhile, hp { f with label := g.label } g hexit.symm, hp f g hexit.symm] at ih ⊢
    split
    · rename_i hleft
      rwa [if_pos hleft] at ih
    · exact .again hexit hscript hedge hst

theorem closeAt (h : Unrolls s t) (location : Location) : Unrolls (s.closeAt location) (t.closeAt location) := by
  refine h.leaveWhile fun f g hexit => ?_
  rw [hexit]

/-- No region of a script is opened again, so the same number of frames ends scripts. -/
theorem leaveScript (h : Unrolls s t) : Unrolls s.leaveScript t.leaveScript := by
  induction h with
  | root hroot hfg => exact .root hroot hfg
  | @region f g s t hfg hst ih =>
    by_cases hscript : f.exit = .scriptExit
    · rw [leaveScript_of_eq hscript, leaveScript_of_eq (hfg.exit ▸ hscript)]
      exact hst
    · rw [leaveScript_of_ne hscript, leaveScript_of_ne (hfg.exit ▸ hscript)]
      exact ih
  | @again f g outer rest t hexit hscript hedge hst ih =>
    have hf : f.exit ≠ .scriptExit := hexit ▸ hscript
    have hraised : ({ f with label := g.label } : Frame).exit ≠ .scriptExit := hf
    rw [leaveScript_of_ne hf] at ih
    rw [leaveScript_of_ne hscript, leaveScript_of_ne hraised]
    exact ih

/-- An exception stops in both stacks at frames that correspond to each other: the regions opened again catch
nothing, and the frame that stands for them does so in its own right. -/
theorem unwind (h : Unrolls s t) : Landing s.unwind t.unwind := by
  induction h with
  | root hroot hfg =>
    exact ⟨hfg.exceptionEdge, fun _ => .root hroot hfg, fun label => .root hroot ⟨rfl, hfg.exit, rfl⟩⟩
  | @region f g s t hfg hst ih =>
    have hstops : stopsUnwinding g = stopsUnwinding f := by
      rw [stopsUnwinding, stopsUnwinding, hfg.exit, hfg.exceptionEdge]
    cases hf : stopsUnwinding f with
    | true =>
      rw [unwind_of_stops hf, unwind_of_stops (hstops.trans hf)]
      exact ⟨hfg.exceptionEdge, fun _ => .region hfg hst, fun label => .region ⟨rfl, hfg.exit, rfl⟩ hst⟩
    | false =>
      rw [unwind_of_passes hf, unwind_of_passes (hstops.trans hf)]
      exact ih
  | @again f g outer rest t hexit hscript hedge hst ih =>
    have hg : stopsUnwinding g = false := by simp [stopsUnwinding, hscript, hedge]
    have hraised : stopsUnwinding { f with label := g.label } = stopsUnwinding f := rfl
    rw [unwind_of_passes hg]
    cases hf : stopsUnwinding f with
    | true =>
      -- The frame ends where `g` does, which is no script's end, so it stops the exception as a handler.
      have hcatches : f.exceptionEdge = true := by
        simpa [stopsUnwinding, ← hexit, hscript] using hf
      rw [unwind_of_stops hf] at ih
      rw [unwind_of_stops (hraised.trans hf)]
      refine ⟨ih.caught, fun huncaught => ?_, ih.handler⟩
      exact absurd (hcatches.symm.trans huncaught) Bool.noConfusion
    | false =>
      rw [unwind_of_passes hf] at ih
      rw [unwind_of_passes (hraised.trans hf)]
      exact ih

theorem throwException (h : Unrolls s t) (hs : s.Ascending) (ht : t.Ascending) (exception : Label) :
    Unrolls (s.throwException exception) (t.throwException exception) := by
  have landing := h.unwind
  cases hcaught : s.unwind.top.exceptionEdge with
  | true =>
    rw [hs.throwException_of_caught hcaught, ht.throwException_of_caught (landing.caught ▸ hcaught), h.head]
    exact landing.handler _
  | false =>
    rw [throwException_of_uncaught hcaught, throwException_of_uncaught (landing.caught ▸ hcaught)]
    exact landing.uncaught hcaught

end Unrolls
end Stack

/-! ### Runs -/

namespace Control

/-- The control states of two runs, where loops are opened again in the second one only. -/
structure UnrollsTo (k l : Control) : Prop where
  stack : k.stack.Unrolls l.stack
  scripts : l.scripts = k.scripts
  ascending : k.stack.Ascending
  ascending_unrolled : l.stack.Ascending

variable {privileged : String → Bool} {k l : Control}

theorem scripts_stepUnrolled (h : l.scripts = k.scripts) (step : Step) :
    (l.stepUnrolled privileged step).scripts = (k.step privileged step).scripts := by
  cases step with
  | enterScript url => exact congrArg (url :: ·) h
  | exitScript =>
    simp only [stepUnrolled, Control.step, exitScript]
    rw [h]
    split
    · exact h
    · rfl
  | loopHeader condition exit =>
    simp only [stepUnrolled, Control.step, loopHeader]
    split <;> exact h
  | _ => exact h

theorem unrolls_step (h : k.UnrollsTo l) {step : Step} (hlocation : step.location? ≠ some .scriptExit) :
    (k.step privileged step).stack.Unrolls (l.stepUnrolled privileged step).stack := by
  have hhead := h.stack.head
  cases step with
  | enterScript url =>
    simp only [stepUnrolled, Control.step, enterScript]
    cases privileged url with
    | true => exact .region ⟨congrArg (·.join .policy) hhead, rfl, rfl⟩ h.stack
    | false => exact .region ⟨congrArg (fun label => (label.without .policy).join .bottom) hhead, rfl, rfl⟩ h.stack
  | exitScript =>
    simp only [stepUnrolled, Control.step, exitScript]
    rw [h.scripts]
    split
    · exact h.stack
    · exact h.stack.leaveScript
  | branch condition exit guardRegister => exact .region ⟨congrArg (·.join condition) hhead, rfl, rfl⟩ h.stack
  | call callee returnsTo functionHandler => exact .region ⟨congrArg (·.join callee) hhead, rfl, rfl⟩ h.stack
  | loopHeader condition exit =>
    have hscript : exit ≠ .scriptExit := by
      rintro rfl
      exact hlocation rfl
    simp only [stepUnrolled, Control.step, loopHeader]
    split
    · exact h.stack.reenter ‹_› hscript
    · exact .region ⟨congrArg (·.join condition) hhead, rfl, rfl⟩ h.stack
  | exceptionRegion exit => exact .region ⟨congrArg (·.join .bottom) hhead, rfl, rfl⟩ h.stack
  | reach location => exact h.stack.closeAt location
  | throwException exception => exact h.stack.throwException h.ascending h.ascending_unrolled exception
  | join label => exact h.stack.join label
  | returnValue value => exact h.stack
  | write existing value => exact h.stack

theorem UnrollsTo.step (h : k.UnrollsTo l) {step : Step} (hlocation : step.location? ≠ some .scriptExit) :
    (k.step privileged step).UnrollsTo (l.stepUnrolled privileged step) where
  stack := unrolls_step h hlocation
  scripts := scripts_stepUnrolled h.scripts step
  ascending := ascending_step step h.ascending
  ascending_unrolled := ascending_stepUnrolled step h.ascending_unrolled

end Control

namespace Context

structure UnrollsTo (c d : Context) : Prop where
  control : c.control.UnrollsTo d.control
  mode : d.globals.mode = c.globals.mode
  policyOrigins : d.registry.policyOrigins = c.registry.policyOrigins

variable {c d : Context}

theorem unrollsTo_ofConfig (config : Config) : (ofConfig config).UnrollsTo (ofConfig config) where
  control := ⟨.root rfl ⟨rfl, rfl, rfl⟩, rfl, List.IsChain.singleton _, List.IsChain.singleton _⟩
  mode := rfl
  policyOrigins := rfl

namespace UnrollsTo

theorem pc (h : c.UnrollsTo d) : d.pc = c.pc := h.control.stack.head.symm

theorem apply (h : c.UnrollsTo d) {step : Step} (hlocation : step.location? ≠ some .scriptExit) :
    (c.apply step).2.UnrollsTo (d.applyUnrolled step).2 := by
  obtain ⟨hmode, horigins⟩ := apply_keeps c step
  obtain ⟨hmode', horigins'⟩ := applyUnrolled_keeps d step
  refine ⟨?_, ?_, ?_⟩
  · rw [control_apply, control_applyUnrolled, Origin.Registry.isPolicyOrigin_congr h.policyOrigins]
    exact h.control.step hlocation
  · rw [hmode, hmode', h.mode]
  · rw [horigins, horigins', h.policyOrigins]

theorem answer (h : c.UnrollsTo d) {step : Step} (hlocation : step.location? ≠ some .scriptExit) :
    (d.applyUnrolled step).1 = (c.apply step).1 := by
  have hpc := (h.apply hlocation).pc
  cases step with
  | loopHeader condition exit => exact congrArg Except.ok hpc
  | write existing value =>
    show (d.apply (.write existing value)).1 = _
    rw [answer_apply, answer_apply, h.mode, h.pc]
  | _ => exact congrArg Except.ok hpc

theorem replay (h : c.UnrollsTo d) {trace : List Step} (locations : ∀ step ∈ trace, step.location? ≠ some .scriptExit) :
    (c.replay trace).UnrollsTo (d.replayUnrolled trace) := by
  induction trace generalizing c d with
  | nil => exact h
  | cons step rest ih =>
    exact ih (h.apply (locations step List.mem_cons_self)) fun step' hstep' =>
      locations step' (List.mem_cons_of_mem step hstep')

theorem answers (h : c.UnrollsTo d) {trace : List Step}
    (locations : ∀ step ∈ trace, step.location? ≠ some .scriptExit) : d.answersUnrolled trace = c.answers trace := by
  induction trace generalizing c d with
  | nil => rfl
  | cons step rest ih =>
    have hstep := locations step List.mem_cons_self
    have hrest := ih (h.apply hstep) fun step' hstep' => locations step' (List.mem_cons_of_mem step hstep')
    simp only [answersUnrolled, Context.answers]
    rw [h.answer hstep, hrest]

end UnrollsTo

/-- Whether a loop is opened again or joined into the innermost frame cannot be told: the program counter is
the same after every step, and the same writes are refused. -/
theorem loops_opened_once (config : Config) (trace : List Step)
    (locations : ∀ step ∈ trace, step.location? ≠ some .scriptExit) :
    (∀ before, before <+: trace →
        ((ofConfig config).replayUnrolled before).pc = ((ofConfig config).replay before).pc) ∧
      (ofConfig config).answersUnrolled trace = (ofConfig config).answers trace := by
  have hstart := unrollsTo_ofConfig config
  refine ⟨fun before hbefore => ?_, hstart.answers locations⟩
  have hreplay := hstart.replay fun step hstep => locations step (hbefore.subset hstep)
  exact hreplay.pc

/-- The loop is joined into a protected block that ends where the loop does, and an exception is thrown
there. -/
theorem loops_opened_once_protected :
    (∀ step ∈ [Step.enterScript "a", .loopHeader .bottom 9, .exceptionRegion 9, .loopHeader .secret 9,
        .branch .bottom 12 none, .throwException .bottom, .write .bottom .bottom, .reach 9],
      step.location? ≠ some .scriptExit) ∧
      (ofConfig {}).answersUnrolled [.enterScript "a", .loopHeader .bottom 9, .exceptionRegion 9,
          .loopHeader .secret 9, .branch .bottom 12 none, .throwException .bottom, .write .bottom .bottom, .reach 9] =
        (ofConfig {}).answers [.enterScript "a", .loopHeader .bottom 9, .exceptionRegion 9, .loopHeader .secret 9,
          .branch .bottom 12 none, .throwException .bottom, .write .bottom .bottom, .reach 9] := by
  have locations : ∀ step ∈ [Step.enterScript "a", .loopHeader .bottom 9, .exceptionRegion 9,
      .loopHeader .secret 9, .branch .bottom 12 none, .throwException .bottom, .write .bottom .bottom, .reach 9],
      step.location? ≠ some .scriptExit := by decide
  exact ⟨locations, (loops_opened_once {} _ locations).2⟩

/-- A loop that ends where its script does is joined into the frame of the script and ends with it; opened
again, it ends in place of the script. -/
example :
    ((ofConfig {}).replay [.loopHeader .bottom 9, .enterScript "a", .join .secret, .loopHeader .bottom .scriptExit,
        .exitScript]).pc = .bottom ∧
      ((ofConfig {}).replayUnrolled [.loopHeader .bottom 9, .enterScript "a", .join .secret,
        .loopHeader .bottom .scriptExit, .exitScript]).pc = .secret := by decide

end Context
end InfoFlow

import Mathlib.Data.List.Induction
import InfoFlow.Proofs.Nesting

/-! # Which frames are those of scripts

The end of a script is found by the location at which its frame ends. A region that a script opens may end there
too, since a branch whose arms all leave the script meets again past its last instruction. Then the end of the
script takes that region for the script's frame, and the frame stays behind, with the policy label of a policy
script and with no script running. Control that is said to reach the end of the script leaves its frame before the
script ends.

Nothing else tells frames and scripts apart: without such hooks the frames that end where scripts do are those of
the running scripts, each where its own start has put it. -/

namespace InfoFlow
namespace Stack

/-- How many frames end where scripts do, not counting the outermost one. -/
def scriptFrames (s : Stack) : Nat := s.frames.tail.countP fun f => f.exit == .scriptExit

/-- Where the frames stand that end where scripts do, the innermost first: a position is the number of frames
further out. -/
def scriptPositionsFrom : Frame → List Frame → List Nat
  | _, [] => []
  | top, outer :: rest =>
    (if top.exit = .scriptExit then [rest.length + 1] else []) ++ scriptPositionsFrom outer rest

def scriptPositions (s : Stack) : List Nat := scriptPositionsFrom s.top s.below

/-- The hook opens a region that ends where scripts do, or leaves frames there although no script ends. -/
def Strays (s : Stack) : Step → Prop
  | .branch _ exit _ | .call _ exit _ | .exceptionRegion exit => exit = .scriptExit
  | .loopHeader _ exit => exit = .scriptExit ∧ s.isLoopAt exit = false
  | .reach location => location = .scriptExit ∧ s.location = .scriptExit ∧ 0 < s.depth
  | _ => False

/-- Where the running scripts' own starts have put their frames, the innermost first, after one more hook. -/
def startsAfter (s : Stack) (starts : List Nat) : Step → List Nat
  | .enterScript _ => (s.depth + 1) :: starts
  | .exitScript => starts.tail
  | _ => starts

variable {s : Stack} {top outer : Frame} {rest : List Frame} {p : Frame → Bool}

/-! ### Positions -/

theorem scriptPositions_cons (f : Frame) (s : Stack) :
    scriptPositions ⟨f, s.top :: s.below⟩ =
      (if f.exit = .scriptExit then [s.depth + 1] else []) ++ s.scriptPositions := rfl

theorem scriptPositions_of_eq (h : top.exit = .scriptExit) :
    scriptPositions ⟨top, outer :: rest⟩ = (rest.length + 1) :: scriptPositions ⟨outer, rest⟩ := by
  simp [scriptPositions, scriptPositionsFrom, h]

theorem scriptPositions_of_ne (h : top.exit ≠ .scriptExit) :
    scriptPositions ⟨top, outer :: rest⟩ = scriptPositions ⟨outer, rest⟩ := by
  simp [scriptPositions, scriptPositionsFrom, h]

theorem length_scriptPositions (s : Stack) : s.scriptPositions.length = s.scriptFrames := by
  obtain ⟨top, below⟩ := s
  rw [scriptFrames, frames, List.tail_reverse, List.countP_reverse]
  induction below generalizing top with
  | nil => rfl
  | cons outer rest ih =>
    rw [List.dropLast_cons_cons, List.countP_cons, ← ih outer]
    by_cases h : top.exit = .scriptExit
    · rw [scriptPositions_of_eq h, h]
      rfl
    · rw [scriptPositions_of_ne h, beq_eq_false_iff_ne.mpr h]
      rfl

/-- Where the innermost frame ends, and not what else it carries, decides on its position. -/
theorem scriptPositions_modifyTop {g : Frame → Frame} (h : (g s.top).exit = s.top.exit) :
    (s.modifyTop g).scriptPositions = s.scriptPositions := by
  obtain ⟨top, below⟩ := s
  cases below with
  | nil => rfl
  | cons outer rest =>
    simp only [modifyTop, scriptPositions, scriptPositionsFrom]
    rw [h]

theorem scriptPositions_leaveWhile (hp : ∀ f, p f = true → f.exit ≠ .scriptExit) :
    (leaveWhile p top rest).scriptPositions = scriptPositions ⟨top, rest⟩ := by
  induction rest generalizing top with
  | nil => rfl
  | cons outer rest ih =>
    unfold leaveWhile
    split
    · rw [ih, scriptPositions_of_ne (hp top ‹_›)]
    · rfl

theorem length_scriptPositions_leaveWhile_le (p : Frame → Bool) (top : Frame) (rest : List Frame) :
    (leaveWhile p top rest).scriptPositions.length ≤ (scriptPositions ⟨top, rest⟩).length := by
  induction rest generalizing top with
  | nil => exact Nat.le_refl _
  | cons outer rest ih =>
    unfold leaveWhile
    split
    · rw [scriptPositions_cons top ⟨outer, rest⟩, List.length_append]
      exact Nat.le_trans (ih outer) (Nat.le_add_left _ _)
    · exact Nat.le_refl _

theorem scriptPositions_unwind (s : Stack) : s.unwind.scriptPositions = s.scriptPositions := by
  refine scriptPositions_leaveWhile fun f hf hscript => ?_
  simp [stopsUnwinding, hscript] at hf

theorem scriptPositions_throwException (s : Stack) (exception : Label) :
    (s.throwException exception).scriptPositions = s.scriptPositions := by
  unfold throwException
  split
  · exact (scriptPositions_modifyTop rfl).trans ((scriptPositions_modifyTop rfl).trans s.scriptPositions_unwind)
  · exact s.scriptPositions_unwind

/-- Reaching the end of scripts leaves nothing unless the innermost frame ends there. -/
theorem scriptPositions_closeAt {location : Location} (h : ¬ s.Strays (.reach location)) :
    (s.closeAt location).scriptPositions = s.scriptPositions := by
  by_cases hlocation : location = .scriptExit
  · obtain ⟨top, below⟩ := s
    cases below with
    | nil => rfl
    | cons outer rest =>
      have htop : top.exit ≠ location := fun heq => h ⟨hlocation, heq.trans hlocation, Nat.zero_lt_succ _⟩
      simp [closeAt, leaveWhile, htop]
  · refine scriptPositions_leaveWhile fun f hf => ?_
    rw [beq_iff_eq.mp hf]
    exact hlocation

/-- The end of a script leaves the innermost frame that ends there, with all frames inside it. -/
theorem leaveScript_of_scriptPositions {position : Nat} {others : List Nat}
    (h : s.scriptPositions = position :: others) :
    s.leaveScript.scriptPositions = others ∧ s.leaveScript.depth + 1 = position := by
  obtain ⟨top, below⟩ := s
  induction below generalizing top with
  | nil => cases h
  | cons outer rest ih =>
    by_cases hscript : top.exit = .scriptExit
    · rw [scriptPositions_of_eq hscript] at h
      injection h with hposition hothers
      rw [leaveScript_of_eq hscript]
      exact ⟨hothers, hposition⟩
    · rw [scriptPositions_of_ne hscript] at h
      rw [leaveScript_of_ne hscript]
      exact ih outer h

theorem frames_leaveScript {position : Nat} {others : List Nat} (h : s.scriptPositions = position :: others) :
    s.leaveScript.frames = s.frames.take position := by
  have hprefix := List.prefix_iff_eq_take.mp (frames_prefix_of_suffix s.leaveScript_suffix)
  rwa [length_frames, (leaveScript_of_scriptPositions h).2] at hprefix

end Stack

/-! ### Hooks -/

namespace Control

variable {privileged : String → Bool} {k : Control}

/-- Hooks that open or leave such frames beside the scripts break the correspondence: they leave the running scripts
as they are. -/
theorem scriptPositions_step_of_strays (privileged : String → Bool) {step : Step} (h : k.stack.Strays step) :
    (k.step privileged step).stack.scriptPositions.length ≠ k.stack.scriptPositions.length ∧
      (k.step privileged step).scripts = k.scripts := by
  have opened {r : Region} (hr : r.exit = .scriptExit) :
      (k.stack.push r).scriptPositions.length ≠ k.stack.scriptPositions.length := by
    have hframe : (r.frame k.stack.top k.stack.head).exit = .scriptExit := hr
    rw [Stack.push, Stack.scriptPositions_cons, if_pos hframe]
    exact Nat.succ_ne_self _
  cases step with
  | branch condition exit guardRegister => exact ⟨opened h, rfl⟩
  | call callee returnsTo functionHandler => exact ⟨opened h, rfl⟩
  | exceptionRegion exit => exact ⟨opened h, rfl⟩
  | loopHeader condition exit =>
    obtain ⟨hscript, hfirst⟩ := h
    have hstep : k.step privileged (.loopHeader condition exit) =
        k.onStack (·.push { Region.branch condition exit none with loopEdge := some true }) := by
      rw [Control.step, loopHeader, hfirst]
      rfl
    rw [hstep]
    exact ⟨opened hscript, rfl⟩
  | reach location =>
    obtain ⟨rfl, htop, hdepth⟩ := h
    obtain ⟨⟨top, below⟩, scripts⟩ := k
    cases below with
    | nil => cases hdepth
    | cons outer rest =>
      refine ⟨Nat.ne_of_lt ?_, rfl⟩
      have hle := Stack.length_scriptPositions_leaveWhile_le (fun f => f.exit == .scriptExit) outer rest
      have htop' : top.exit = .scriptExit := htop
      rw [Stack.scriptPositions_of_eq htop', List.length_cons]
      refine Nat.lt_succ_of_le ?_
      simpa [Control.step, onStack, Stack.closeAt, Stack.leaveWhile, htop'] using hle
  | _ => cases h

/-- The frames that end where scripts do stand where the starts of the running scripts have put them. -/
structure ScriptsFramed (starts : List Nat) (k : Control) : Prop where
  positions : k.stack.scriptPositions = starts
  running : starts.length = k.scripts.length

theorem ScriptsFramed.step {starts : List Nat} (h : k.ScriptsFramed starts) {step : Step}
    (hstep : ¬ k.stack.Strays step) :
    (k.step privileged step).ScriptsFramed (k.stack.startsAfter starts step) := by
  have opened {f : Frame} (hf : f.exit ≠ .scriptExit) :
      Stack.scriptPositions ⟨f, k.stack.top :: k.stack.below⟩ = starts :=
    (Stack.scriptPositions_of_ne hf).trans h.positions
  cases step with
  | enterScript url =>
    refine ⟨?_, congrArg Nat.succ h.running⟩
    have started {f : Frame} (hf : f.exit = .scriptExit) :
        Stack.scriptPositions ⟨f, k.stack.top :: k.stack.below⟩ = (k.stack.depth + 1) :: starts := by
      rw [Stack.scriptPositions_cons, if_pos hf, h.positions, List.singleton_append]
    simp only [Control.step, enterScript]
    cases privileged url with
    | true => exact started rfl
    | false => exact started rfl
  | exitScript =>
    obtain ⟨s, scripts⟩ := k
    obtain ⟨hpositions, hrunning⟩ := h
    cases scripts with
    | nil =>
      obtain rfl := List.length_eq_zero_iff.mp hrunning
      exact ⟨hpositions, rfl⟩
    | cons url scripts =>
      cases starts with
      | nil => cases hrunning
      | cons position others => exact ⟨(Stack.leaveScript_of_scriptPositions hpositions).1, Nat.succ.inj hrunning⟩
  | branch condition exit guardRegister => exact ⟨opened hstep, h.running⟩
  | call callee returnsTo functionHandler => exact ⟨opened hstep, h.running⟩
  | exceptionRegion exit => exact ⟨opened hstep, h.running⟩
  | loopHeader condition exit =>
    simp only [Control.step, loopHeader]
    split
    · exact ⟨(Stack.scriptPositions_modifyTop rfl).trans h.positions, h.running⟩
    · rename_i hfirst
      exact ⟨opened fun hscript => hstep ⟨hscript, Bool.eq_false_iff.mpr hfirst⟩, h.running⟩
  | reach location => exact ⟨(Stack.scriptPositions_closeAt hstep).trans h.positions, h.running⟩
  | throwException exception =>
    exact ⟨(k.stack.scriptPositions_throwException exception).trans h.positions, h.running⟩
  | join label => exact ⟨(Stack.scriptPositions_modifyTop rfl).trans h.positions, h.running⟩
  | returnValue value => exact h
  | write existing value => exact h

end Control

/-! ### Traces -/

namespace Context

variable {c : Context} {starts : List Nat} {trace : List Step}

/-- There are as many frames that end where scripts do as there are running scripts. -/
def Matched (c : Context) : Prop := c.stack.scriptFrames = c.scripts.length

/-- No hook of a trace opens a region that ends where scripts do, or leaves frames there although no script ends. -/
def NeverStrays (c : Context) (trace : List Step) : Prop :=
  ∀ before step, before ++ [step] <+: trace → ¬ (c.replay before).stack.Strays step

/-- Where the scripts that run after a trace have put their frames, given that for those that run before it. -/
def scriptStarts (c : Context) (before : List Nat) : List Step → List Nat
  | [] => before
  | step :: rest => (c.apply step).2.scriptStarts (c.stack.startsAfter before step) rest

theorem scriptStarts_concat {step : Step} :
    c.scriptStarts starts (trace ++ [step]) =
      (c.replay trace).stack.startsAfter (c.scriptStarts starts trace) step := by
  induction trace generalizing c starts with
  | nil => rfl
  | cons first rest ih => exact ih

theorem scriptsFramed_replay (h : c.control.ScriptsFramed starts) (hstrays : c.NeverStrays trace) :
    (c.replay trace).control.ScriptsFramed (c.scriptStarts starts trace) := by
  induction trace using List.reverseRecOn with
  | nil => exact h
  | append_singleton rest step ih =>
    have hrest := ih fun before other hbefore => hstrays before other (hbefore.trans (List.prefix_append _ _))
    rw [replay_append, replay_cons, replay_nil, control_apply, scriptStarts_concat]
    exact hrest.step (hstrays rest step List.prefix_rfl)

theorem scriptFrames_apply_of_strays {step : Step} (h : c.stack.Strays step) :
    (c.apply step).2.stack.scriptFrames ≠ c.stack.scriptFrames ∧ (c.apply step).2.scripts = c.scripts := by
  have hcontrol := control_apply c step
  obtain ⟨hlength, hscripts⟩ := Control.scriptPositions_step_of_strays c.registry.isPolicyOrigin (k := c.control) h
  rw [← hcontrol, Stack.length_scriptPositions, Stack.length_scriptPositions] at hlength
  exact ⟨hlength, (congrArg Control.scripts hcontrol).trans hscripts⟩

theorem matched_of_scriptsFramed (h : c.control.ScriptsFramed starts) : c.Matched := by
  have hlength := c.stack.length_scriptPositions
  rw [show c.stack.scriptPositions = starts from h.positions] at hlength
  exact hlength.symm.trans h.running

/-- A script's frame stands where the script's own start has put it, and the end of the innermost script leaves that
frame with all inside it and no other one. -/
structure OwnFrames (c : Context) (starts : List Nat) : Prop where
  positions : c.stack.scriptPositions = starts
  exit : ∀ position ∈ starts.head?, c.exitScript.2.stack.frames = c.stack.frames.take position

theorem ownFrames_of_scriptsFramed (h : c.control.ScriptsFramed starts) : c.OwnFrames starts := by
  refine ⟨h.positions, fun position hposition => ?_⟩
  obtain ⟨others, rfl⟩ := List.head?_eq_some_iff.mp hposition
  obtain ⟨stack, registry, table, globals, log, scripts⟩ := c
  cases scripts with
  | nil => cases h.running
  | cons url scripts => exact Stack.frames_leaveScript h.positions

/-- A trace from the start of a context keeps scripts and frames matched exactly if no hook strays, and then each
script leaves its own frame. -/
theorem script_frames_iff (config : Config) (trace : List Step) :
    ((∀ before, before <+: trace → ((ofConfig config).replay before).Matched) ↔
        (ofConfig config).NeverStrays trace) ∧
      ((ofConfig config).NeverStrays trace → ∀ before, before <+: trace →
        ((ofConfig config).replay before).OwnFrames ((ofConfig config).scriptStarts [] before)) := by
  have hempty : (ofConfig config).control.ScriptsFramed [] := ⟨rfl, rfl⟩
  have hframed (hstrays : (ofConfig config).NeverStrays trace) {before : List Step} (hbefore : before <+: trace) :
      ((ofConfig config).replay before).control.ScriptsFramed ((ofConfig config).scriptStarts [] before) :=
    scriptsFramed_replay hempty fun first step hfirst => hstrays first step (hfirst.trans hbefore)
  refine ⟨⟨fun hmatched before step hstep hstray => ?_, fun hstrays before hbefore => ?_⟩, ?_⟩
  · -- The hook changes the number of frames and not that of scripts, so one of the two states is not matched.
    have hbefore := hmatched before ((List.prefix_append before [step]).trans hstep)
    have hafter := hmatched (before ++ [step]) hstep
    rw [replay_append, replay_cons, replay_nil] at hafter
    obtain ⟨hframes, hscripts⟩ := scriptFrames_apply_of_strays hstray
    exact hframes (hafter.trans ((congrArg List.length hscripts).trans hbefore.symm))
  · exact matched_of_scriptsFramed (hframed hstrays hbefore)
  · exact fun hstrays before hbefore => ownFrames_of_scriptsFramed (hframed hstrays hbefore)

/-- A branch of a policy script ends where the script does. The end of the script leaves the branch and not the
frame of the script, and the policy label stays on the program counter with no script running. -/
theorem privilege_outlives_script :
    ¬ ((ofConfig { policyOrigins := ["p"] }).replay
        [.enterScript "p", .branch .bottom .scriptExit none, .exitScript]).Matched ∧
      ((ofConfig { policyOrigins := ["p"] }).replay
        [.enterScript "p", .branch .bottom .scriptExit none, .exitScript]).scripts = [] ∧
      ((ofConfig { policyOrigins := ["p"] }).replay
        [.enterScript "p", .branch .bottom .scriptExit none, .exitScript]).pc = .policy := by
  refine ⟨?_, by decide, by decide⟩
  unfold Matched
  decide

end Context
end InfoFlow

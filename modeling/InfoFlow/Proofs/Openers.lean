import InfoFlow.Proofs.Locality

/-! # What has opened the regions

A frame does not tell which hook has opened it. That is told by the depth of the stack along a trace: the hook
that makes the stack deeper opens a region, and the region is open for as long as the stack is as deep as with it.

Two marks of a frame come from the hook that opened it, or else from the frame around: that a loop is open in the
running function, and that the function has an exception handler. Nothing changes them later on, so they can be
told from the hooks that have opened the open regions. -/

namespace InfoFlow
namespace Step

def isCall : Step → Bool
  | .call _ _ _ => true
  | _ => false

def isLoopHeader : Step → Bool
  | .loopHeader _ _ => true
  | _ => false

/-- Where the region ends that the hook opens. -/
def regionEnd? : Step → Option Location
  | .enterScript _ => some .scriptExit
  | .branch _ exit _ | .call _ exit _ | .loopHeader _ exit | .exceptionRegion exit => some exit
  | _ => none

/-- The loop mark of the region that the hook opens, given that of the frame around. -/
def loopMark : Step → Bool → Bool
  | .call _ _ _, _ => false
  | .loopHeader _ _, _ => true
  | _, outer => outer

/-- The handler mark of the region that the hook opens, given that of the frame around. -/
def handlerMark : Step → Bool → Bool
  | .call _ _ functionHandler, _ => functionHandler
  | .exceptionRegion _, _ => true
  | .enterScript _, _ | .loopHeader _ _, _ => false
  | _, outer => outer

/-- The hooks that have opened the open regions, the innermost first, after one more hook that takes the stack from
one depth to another. -/
def openersAfter (openers : List Step) (step : Step) (before after : Nat) : List Step :=
  if before < after then step :: openers else openers.drop (before - after)

theorem openersAfter_of_le {openers : List Step} {step : Step} {before after : Nat} (h : after ≤ before) :
    openersAfter openers step before after = openers.drop (before - after) := if_neg (Nat.not_lt.mpr h)

theorem openersAfter_self {openers : List Step} {step : Step} {depth : Nat} :
    openersAfter openers step depth depth = openers := by
  rw [openersAfter_of_le (Nat.le_refl _), Nat.sub_self, List.drop_zero]

theorem openersAfter_succ {openers : List Step} {step : Step} {depth : Nat} :
    openersAfter openers step depth (depth + 1) = step :: openers := if_pos (Nat.lt_succ_self _)

theorem mem_openersAfter {openers : List Step} {step other : Step} {before after : Nat}
    (h : other ∈ openersAfter openers step before after) : other = step ∨ other ∈ openers := by
  unfold openersAfter at h
  split at h
  · exact List.mem_cons.mp h
  · exact Or.inr (List.mem_of_mem_drop h)

end Step

open Step (openersAfter openersAfter_of_le openersAfter_self openersAfter_succ mem_openersAfter)

namespace Stack

/-- The frame is that of a region which the hook has opened inside `outer`. -/
structure OpenedBy (step : Step) (f outer : Frame) : Prop where
  exit : step.regionEnd? = some f.exit
  loopEdge : f.loopEdge = step.loopMark outer.loopEdge
  functionHandler : f.functionHandler = step.handlerMark outer.functionHandler

/-- The hooks `openers` have opened the frames of a stack inside a frame with the given marks, which stands on
`base`. -/
inductive Opened (loopEdge functionHandler : Bool) (base : List Frame) : List Step → Stack → Prop where
  | root {f : Frame} : f.loopEdge = loopEdge → f.functionHandler = functionHandler →
      Opened loopEdge functionHandler base [] ⟨f, base⟩
  | region {f : Frame} {step : Step} {openers : List Step} {s : Stack} : OpenedBy step f s.top →
      Opened loopEdge functionHandler base openers s →
      Opened loopEdge functionHandler base (step :: openers) ⟨f, s.top :: s.below⟩

theorem eq_of_cons_eq {s t : Stack} (h : t.top :: t.below = s.top :: s.below) : t = s := by
  obtain ⟨top, below⟩ := t
  obtain ⟨rfl, rfl⟩ := List.cons.inj h
  rfl

namespace Opened

variable {loopEdge functionHandler : Bool} {base : List Frame} {openers : List Step} {s t : Stack}

theorem marks (h : Opened loopEdge functionHandler base openers s) :
    s.top.loopEdge = openers.foldr Step.loopMark loopEdge ∧
      s.top.functionHandler = openers.foldr Step.handlerMark functionHandler := by
  induction h with
  | root hloop hhandler => exact ⟨hloop, hhandler⟩
  | region hf _ ih =>
    obtain ⟨hloop, hhandler⟩ := ih
    exact ⟨hf.loopEdge.trans (congrArg _ hloop), hf.functionHandler.trans (congrArg _ hhandler)⟩

theorem depth_eq (h : Opened loopEdge functionHandler base openers s) : s.depth = base.length + openers.length := by
  induction h with
  | root => rfl
  | @region _ _ openers s _ _ ih =>
    have hdepth : s.below.length = base.length + openers.length := ih
    simp only [depth, List.length_cons]
    omega

/-- A region inside the root ends where the hook says that has opened it. -/
theorem location_eq (h : Opened loopEdge functionHandler base openers s) {step : Step}
    (hstep : openers.head? = some step) : step.regionEnd? = some s.location := by
  cases h with
  | root => cases hstep
  | region hf _ =>
    obtain rfl := Option.some.inj hstep
    exact hf.exit

/-! ### Hooks -/

/-- A hook that opens a region is the one that has opened it. -/
theorem openFrame (h : Opened loopEdge functionHandler base openers s) {step : Step} {f : Frame}
    (hf : OpenedBy step f s.top) :
    Opened loopEdge functionHandler base (openersAfter openers step s.depth (s.depth + 1)) ⟨f, s.top :: s.below⟩ := by
  rw [openersAfter_succ]
  exact .region hf h

/-- The innermost frame may change if it ends where it did and keeps the marks. -/
theorem modifyTop (h : Opened loopEdge functionHandler base openers s) {g : Frame → Frame}
    (hexit : (g s.top).exit = s.top.exit) (hloop : (g s.top).loopEdge = s.top.loopEdge)
    (hhandler : (g s.top).functionHandler = s.top.functionHandler) :
    Opened loopEdge functionHandler base openers (s.modifyTop g) := by
  cases h with
  | root hrootLoop hrootHandler => exact .root (hloop.trans hrootLoop) (hhandler.trans hrootHandler)
  | region hf hs =>
    exact .region ⟨hexit ▸ hf.exit, hloop.trans hf.loopEdge, hhandler.trans hf.functionHandler⟩ hs

theorem drop (h : Opened loopEdge functionHandler base openers s) (hleft : t.top :: t.below <:+ s.top :: s.below)
    (hbase : base.length ≤ t.depth) :
    Opened loopEdge functionHandler base (openers.drop (s.depth - t.depth)) t := by
  induction h with
  | @root f hloop hhandler =>
    have hlength : (t.top :: t.below).length = (f :: base).length :=
      Nat.le_antisymm hleft.length_le (Nat.succ_le_succ hbase)
    obtain rfl : t = ⟨f, base⟩ := eq_of_cons_eq (hleft.eq_of_length hlength)
    rw [List.drop_nil]
    exact .root hloop hhandler
  | @region f step openers s hf hs ih =>
    rcases List.suffix_cons_iff.mp hleft with hsame | hinner
    · obtain rfl : t = ⟨f, s.top :: s.below⟩ := eq_of_cons_eq hsame
      rw [Nat.sub_self, List.drop_zero]
      exact .region hf hs
    · have hle : t.depth ≤ s.depth := Nat.le_of_succ_le_succ hinner.length_le
      have hdrop : Stack.depth ⟨f, s.top :: s.below⟩ - t.depth = s.depth - t.depth + 1 := Nat.succ_sub hle
      rw [hdrop, List.drop_succ_cons]
      exact ih hinner

/-- With regions that are left go the hooks that have opened them. -/
theorem leave (h : Opened loopEdge functionHandler base openers s) {step : Step}
    (hleft : t.top :: t.below <:+ s.top :: s.below) (hbase : base.length ≤ t.depth) :
    Opened loopEdge functionHandler base (openersAfter openers step s.depth t.depth) t := by
  have hle : t.depth ≤ s.depth := Nat.le_of_succ_le_succ hleft.length_le
  rw [openersAfter_of_le hle]
  exact h.drop hleft hbase

theorem throwException (h : Opened loopEdge functionHandler base openers s) {step : Step} {exception : Label}
    (hbase : base.length ≤ (s.throwException exception).depth) :
    Opened loopEdge functionHandler base (openersAfter openers step s.depth (s.throwException exception).depth)
      (s.throwException exception) := by
  rw [depth_throwException] at hbase ⊢
  have hunwind : Opened loopEdge functionHandler base (openersAfter openers step s.depth s.unwind.depth) s.unwind :=
    h.leave (leaveWhile_suffix _ s.top s.below) hbase
  unfold Stack.throwException
  split
  · exact (hunwind.modifyTop rfl rfl rfl).modifyTop rfl rfl rfl
  · exact hunwind

end Opened
end Stack

/-- The record of what has opened the regions keeps step with the hooks, as long as the root stays. -/
theorem Control.opened_step {privileged : String → Bool} {k : Control} {loopEdge functionHandler : Bool}
    {base : List Frame} {openers : List Step} {step : Step}
    (h : Stack.Opened loopEdge functionHandler base openers k.stack)
    (hbase : base.length ≤ (k.step privileged step).stack.depth) :
    Stack.Opened loopEdge functionHandler base
      (openersAfter openers step k.stack.depth (k.step privileged step).stack.depth)
      (k.step privileged step).stack := by
  have same : openersAfter openers step k.stack.depth k.stack.depth = openers := openersAfter_self
  have joined (label : Label) : Stack.Opened loopEdge functionHandler base
      (openersAfter openers step k.stack.depth (k.stack.join label).depth) (k.stack.join label) :=
    same.symm ▸ h.modifyTop rfl rfl rfl
  cases step with
  | enterScript url =>
    simp only [Control.step, enterScript]
    cases privileged url with
    | true => exact h.openFrame ⟨rfl, rfl, rfl⟩
    | false => exact h.openFrame ⟨rfl, rfl, rfl⟩
  | exitScript =>
    obtain ⟨s, scripts⟩ := k
    cases scripts with
    | nil => exact same.symm ▸ h
    | cons url scripts => exact h.leave s.leaveScript_suffix hbase
  | branch condition exit guardRegister => exact h.openFrame ⟨rfl, rfl, rfl⟩
  | call callee returnsTo functionHandler => exact h.openFrame ⟨rfl, rfl, rfl⟩
  | loopHeader condition exit =>
    simp only [Control.step, loopHeader]
    split
    · exact joined condition
    · exact h.openFrame ⟨rfl, rfl, rfl⟩
  | exceptionRegion exit => exact h.openFrame ⟨rfl, rfl, rfl⟩
  | reach location => exact h.leave (Stack.leaveWhile_suffix _ k.stack.top k.stack.below) hbase
  | throwException exception => exact h.throwException hbase
  | join label => exact joined label
  | returnValue value => exact same.symm ▸ h
  | write existing value => exact same.symm ▸ h

/-! ### Traces -/

namespace Context

/-- The hooks that have opened the open regions, the innermost first, after a trace that starts with `known`. -/
def openers (c : Context) (known : List Step) : List Step → List Step
  | [] => known
  | step :: trace =>
    (c.apply step).2.openers (openersAfter known step c.stack.depth (c.apply step).2.stack.depth) trace

variable {c : Context} {loopEdge functionHandler : Bool} {base : List Frame} {known trace : List Step}

theorem opened_replay (h : c.stack.Opened loopEdge functionHandler base known)
    (inside : ∀ d ∈ c.states (trace.map .hook), base.length ≤ d.stack.depth) :
    (c.replay trace).stack.Opened loopEdge functionHandler base (c.openers known trace) := by
  induction trace generalizing c known with
  | nil => exact h
  | cons step rest ih =>
    have hinside : base.length ≤ (c.apply step).2.stack.depth := inside _ (List.mem_cons_of_mem c mem_states_self)
    refine ih ?_ fun d hd => inside d (List.mem_cons_of_mem c hd)
    rw [stack_apply] at hinside ⊢
    exact Control.opened_step h hinside

theorem mem_openers {step : Step} (h : step ∈ c.openers known trace) : step ∈ known ∨ step ∈ trace := by
  induction trace generalizing c known with
  | nil => exact Or.inl h
  | cons first rest ih =>
    rcases ih h with hknown | hrest
    · rcases mem_openersAfter hknown with rfl | hbefore
      · exact Or.inr List.mem_cons_self
      · exact Or.inl hbefore
    · exact Or.inr (List.mem_cons_of_mem first hrest)

end Context
end InfoFlow

import Mathlib.Algebra.GroupWithZero.Nat
import InfoFlow.Proofs.Ascent
import InfoFlow.Proofs.Nesting
import InfoFlow.Proofs.Recording

/-! # Exceptions visit handlers from the inside out

An exception goes to the innermost handler of the running script, which then is an ordinary region. So the next
one goes to the handler around it, and when none is left every further one stops at the frame of the script. The
labels of the exceptions pile up on the way, and since labels grow inward, a handler adds nothing of its own.

For this the frame of a script and the outermost frame must not look like handlers. Hooks see to that as long as
they do not name the end of scripts. -/

namespace InfoFlow
namespace Stack

/-- The frames that catch an exception above the frame of the running script, or above the outermost frame if none
runs: from the inside out, each with the frames around it. -/
def handlersFrom : Frame → List Frame → List Stack
  | _, [] => []
  | top, outer :: rest =>
    if top.exit = .scriptExit then []
    else (if top.exceptionEdge then [⟨top, outer :: rest⟩] else []) ++ handlersFrom outer rest

def handlers (s : Stack) : List Stack := handlersFrom s.top s.below

/-- The frame of the running script, or the outermost frame if none runs, with the frames around it. -/
def scriptBase (s : Stack) : Stack := leaveWhile (fun f => f.exit != .scriptExit) s.top s.below

def throwAll (s : Stack) (exceptions : List Label) : Stack := exceptions.foldl throwException s

variable {s t : Stack} {top outer : Frame} {rest : List Frame} {exception : Label} {exceptions : List Label}

/-! ### What catches no exception -/

/-- Neither the frame of a script nor the outermost frame catches an exception. -/
inductive Bounded : Stack → Prop where
  | outermost {f : Frame} : f.exceptionEdge = false → Bounded ⟨f, []⟩
  | inner {f : Frame} {s : Stack} : (f.exit = .scriptExit → f.exceptionEdge = false) → Bounded s →
      Bounded ⟨f, s.top :: s.below⟩

namespace Bounded

theorem push (h : Bounded s) {r : Region} (hr : r.exit = .scriptExit → r.exceptionEdge = false) :
    Bounded (s.push r) := .inner hr h

theorem pushWithout (h : Bounded s) {r : Region} (hr : r.exit = .scriptExit → r.exceptionEdge = false)
    (revoked : Label) : Bounded (s.pushWithout r revoked) := .inner hr h

/-- The innermost frame may change, but not become a handler. -/
theorem modifyTop (h : Bounded s) {g : Frame → Frame} (hexit : (g s.top).exit = s.top.exit)
    (hedge : s.top.exceptionEdge = false → (g s.top).exceptionEdge = false) : Bounded (s.modifyTop g) := by
  cases h with
  | outermost htop => exact .outermost (hedge htop)
  | inner htop hs => exact .inner (fun hscript => hedge (htop (hexit ▸ hscript))) hs

theorem join (h : Bounded s) (label : Label) : Bounded (s.join label) := h.modifyTop rfl id

theorem leaveWhile (h : Bounded s) (p : Frame → Bool) : Bounded (Stack.leaveWhile p s.top s.below) := by
  induction h with
  | outermost htop => exact .outermost htop
  | inner htop hs ih =>
    unfold Stack.leaveWhile
    split
    · exact ih
    · exact .inner htop hs

theorem leave (h : Bounded s) : Bounded s.leave := by
  cases h with
  | outermost htop => exact .outermost htop
  | inner _ hs => exact hs

theorem throwException (h : Bounded s) (exception : Label) : Bounded (s.throwException exception) := by
  have hunwind : Bounded s.unwind := h.leaveWhile _
  unfold Stack.throwException
  split
  · exact (hunwind.modifyTop rfl id).modifyTop rfl fun _ => rfl
  · exact hunwind

end Bounded

/-! ### One exception -/

theorem scriptBase_of_ne (h : top.exit ≠ .scriptExit) :
    scriptBase ⟨top, outer :: rest⟩ = scriptBase ⟨outer, rest⟩ := by
  simp [scriptBase, leaveWhile, h]

theorem scriptBase_of_eq (h : top.exit = .scriptExit) : scriptBase ⟨top, rest⟩ = ⟨top, rest⟩ := by
  cases rest <;> simp [scriptBase, leaveWhile, h]

theorem handlers_of_eq (h : top.exit = .scriptExit) : handlers ⟨top, rest⟩ = [] := by
  cases rest <;> simp [handlers, handlersFrom, h]

theorem handlers_of_ne (h : top.exit ≠ .scriptExit) :
    handlers ⟨top, outer :: rest⟩ =
      (if top.exceptionEdge then [⟨top, outer :: rest⟩] else []) ++ handlers ⟨outer, rest⟩ := by
  simp [handlers, handlersFrom, h]

theorem stopsUnwinding_of_ne (h : top.exit ≠ .scriptExit) : stopsUnwinding top = top.exceptionEdge := by
  simp [stopsUnwinding, h]

/-- Inside the frame of the running script there is no handler, and from there on everything stays. -/
theorem handlers_scriptBase (s : Stack) : s.scriptBase.handlers = [] ∧ s.scriptBase.scriptBase = s.scriptBase := by
  obtain ⟨top, below⟩ := s
  induction below generalizing top with
  | nil => exact ⟨rfl, rfl⟩
  | cons outer rest ih =>
    by_cases h : top.exit = .scriptExit
    · rw [scriptBase_of_eq h]
      exact ⟨handlers_of_eq h, scriptBase_of_eq h⟩
    · rw [scriptBase_of_ne h]
      exact ih outer

/-- Without a handler an exception stops at the frame of the running script, which does not catch it. -/
theorem Bounded.unwind_of_handlers_nil (h : Bounded s) (hnone : s.handlers = []) :
    s.unwind = s.scriptBase ∧ s.unwind.top.exceptionEdge = false := by
  induction h with
  | outermost htop => exact ⟨rfl, htop⟩
  | @inner f s htop hs ih =>
    by_cases hscript : f.exit = .scriptExit
    · have hstops : stopsUnwinding f = true := by simp [stopsUnwinding, hscript]
      rw [unwind_of_stops hstops, scriptBase_of_eq hscript]
      exact ⟨rfl, htop hscript⟩
    · rw [handlers_of_ne hscript, List.append_eq_nil_iff] at hnone
      have hpasses : stopsUnwinding f = false := by
        rw [stopsUnwinding_of_ne hscript]
        simpa using hnone.1
      rw [unwind_of_passes hpasses, scriptBase_of_ne hscript]
      exact ih hnone.2

/-- An exception stops at the innermost handler; the handlers around it are left once that one runs. -/
theorem unwind_of_handlers_cons {handler : Stack} {others : List Stack} (h : s.handlers = handler :: others) :
    s.unwind = handler ∧ handler.top.exceptionEdge = true ∧
      ∀ label, (handler.startHandler label).handlers = others ∧
        (handler.startHandler label).scriptBase = s.scriptBase := by
  obtain ⟨top, below⟩ := s
  induction below generalizing top with
  | nil => cases h
  | cons outer rest ih =>
    by_cases hscript : top.exit = .scriptExit
    · rw [handlers_of_eq hscript] at h
      cases h
    · rw [handlers_of_ne hscript] at h
      rw [scriptBase_of_ne hscript]
      cases hedge : top.exceptionEdge with
      | true =>
        rw [hedge, if_pos rfl, List.singleton_append] at h
        injection h with hhandler hothers
        subst hhandler hothers
        rw [unwind_of_stops (by rw [stopsUnwinding_of_ne hscript, hedge])]
        refine ⟨rfl, hedge, fun label => ⟨?_, scriptBase_of_ne hscript⟩⟩
        have hstarted : ({ top with label, exceptionEdge := false } : Frame).exit ≠ .scriptExit := hscript
        exact handlers_of_ne hstarted
      | false =>
        rw [hedge, if_neg Bool.false_ne_true, List.nil_append] at h
        rw [unwind_of_passes (by rw [stopsUnwinding_of_ne hscript, hedge])]
        exact ih outer h

/-! ### Consecutive exceptions -/

/-- What one exception does. -/
inductive Lands (s : Stack) (exception : Label) : Prop where
  /-- The innermost handler runs under the label that governed the throw, and those around it are left. -/
  | caught {handler : Stack} {others : List Stack} : s.handlers = handler :: others →
      s.unwind.top.exceptionEdge = true →
      s.throwException exception = handler.startHandler (s.head.join exception) →
      (s.throwException exception).handlers = others → (s.throwException exception).scriptBase = s.scriptBase →
      Lands s exception
  | uncaught : s.handlers = [] → s.unwind.top.exceptionEdge = false →
      s.throwException exception = s.scriptBase → Lands s exception

theorem lands (hb : Bounded s) (ha : s.Ascending) (exception : Label) : Lands s exception := by
  cases hs : s.handlers with
  | nil =>
    obtain ⟨hunwind, hedge⟩ := hb.unwind_of_handlers_nil hs
    exact .uncaught hs hedge ((throwException_of_uncaught hedge).trans hunwind)
  | cons handler others =>
    obtain ⟨hunwind, hedge, hrest⟩ := unwind_of_handlers_cons hs
    have hcaught : s.unwind.top.exceptionEdge = true := hunwind ▸ hedge
    have hthrow : s.throwException exception = handler.startHandler (s.head.join exception) := by
      rw [ha.throwException_of_caught hcaught, hunwind]
    obtain ⟨hothers, hbase⟩ := hrest (s.head.join exception)
    exact .caught hs hcaught hthrow (hthrow ▸ hothers) (hthrow ▸ hbase)

/-- As many exceptions as there are handlers up to a certain one start that handler, under the labels of all. -/
theorem throwAll_of_handler (hb : Bounded s) (ha : s.Ascending) {n : Nat} (hn : exceptions.length = n + 1)
    {handler : Stack} (h : s.handlers[n]? = some handler) :
    s.throwAll exceptions = handler.startHandler (exceptions.foldl .join s.head) := by
  induction exceptions generalizing s n with
  | nil => cases hn
  | cons exception rest ih =>
    cases lands hb ha exception with
    | uncaught hs => simp [hs] at h
    | @caught first others hs _ hthrow hothers _ =>
      rw [hs] at h
      cases n with
      | zero =>
        obtain rfl := List.length_eq_zero_iff.mp (Nat.succ.inj hn)
        obtain rfl := Option.some.inj h
        exact hthrow
      | succ n =>
        have hhead : (s.throwException exception).head = s.head.join exception := by rw [hthrow]; rfl
        have hrest := ih (hb.throwException exception) (ha.throwException exception) (Nat.succ.inj hn)
          (hothers.symm ▸ h)
        rwa [hhead] at hrest

/-- More exceptions than there are handlers stop at the frame of the running script. -/
theorem throwAll_of_length_lt (hb : Bounded s) (ha : s.Ascending) (h : s.handlers.length < exceptions.length) :
    s.throwAll exceptions = s.scriptBase := by
  induction exceptions generalizing s with
  | nil => cases h
  | cons exception rest ih =>
    have hnext := ih (hb.throwException exception) (ha.throwException exception)
    show (s.throwException exception).throwAll rest = s.scriptBase
    cases lands hb ha exception with
    | uncaught hs _ hthrow =>
      obtain ⟨hnone, hbase⟩ := handlers_scriptBase s
      rw [hthrow, hnone, hbase] at hnext
      rw [hthrow]
      cases rest with
      | nil => rfl
      | cons => exact hnext (Nat.zero_lt_succ _)
    | caught hs _ _ hothers hbase =>
      rw [hs] at h
      rw [hothers, hbase] at hnext
      exact hnext (Nat.lt_of_succ_lt_succ h)

end Stack

/-! ### Runs -/

/-- Hooks that do not name the end of scripts make no handler of a script's frame or the outermost one. -/
theorem Control.bounded_step {privileged : String → Bool} {k : Control} {step : Step} (h : k.stack.Bounded)
    (hlocation : step.location? ≠ some .scriptExit) : (k.step privileged step).stack.Bounded := by
  have plain {r : Region} (hr : r.exceptionEdge = false) : r.exit = .scriptExit → r.exceptionEdge = false :=
    fun _ => hr
  cases step with
  | enterScript url =>
    simp only [Control.step, Control.enterScript]
    cases privileged url with
    | true => exact h.push (plain rfl)
    | false => exact h.pushWithout (plain rfl) _
  | exitScript =>
    obtain ⟨s, scripts⟩ := k
    cases scripts with
    | nil => exact h
    | cons url scripts => exact (Stack.Bounded.leaveWhile h _).leave
  | branch condition exit guardRegister => exact h.push (plain rfl)
  | call callee returnsTo functionHandler => exact h.push (plain rfl)
  | loopHeader condition exit =>
    simp only [Control.step, Control.loopHeader]
    split
    · exact h.join condition
    · exact h.push (plain rfl)
  | exceptionRegion exit =>
    refine h.push fun hscript => absurd ?_ hlocation
    exact congrArg some hscript
  | reach location => exact h.leaveWhile _
  | throwException exception => exact h.throwException exception
  | join label => exact h.join label
  | returnValue value => exact h
  | write existing value => exact h

namespace Context

variable {c : Context} {exceptions : List Label}

/-- What is needed for exceptions to visit the handlers of a context: labels grow inward, and what must not catch
an exception does not. -/
structure Layered (c : Context) : Prop where
  bounded : c.stack.Bounded
  ascending : c.stack.Ascending
  drained : c.Drained

theorem layered_ofConfig (config : Config) : (ofConfig config).Layered :=
  ⟨.outermost rfl, List.IsChain.singleton _, drained_ofConfig config⟩

theorem Layered.apply (h : c.Layered) {step : Step} (hlocation : step.location? ≠ some .scriptExit) :
    (c.apply step).2.Layered where
  bounded := by
    rw [stack_apply]
    exact Control.bounded_step h.bounded hlocation
  ascending := by
    rw [stack_apply]
    exact Control.ascending_step step h.ascending
  drained := h.drained.perform (.hook step)

theorem Layered.replay (h : c.Layered) {trace : List Step}
    (locations : ∀ step ∈ trace, step.location? ≠ some .scriptExit) : (c.replay trace).Layered := by
  induction trace generalizing c with
  | nil => exact h
  | cons step rest ih =>
    refine ih (h.apply (locations step List.mem_cons_self)) fun other hother => ?_
    exact locations other (List.mem_cons_of_mem step hother)

/-- The context after consecutive exceptions. -/
def throwAll (c : Context) (exceptions : List Label) : Context := c.replay (exceptions.map .throwException)

/-- How many regions each of consecutive exceptions leaves. -/
def throwCounts (c : Context) : List Label → List Nat
  | [] => []
  | exception :: rest => (c.throwException exception).1 :: (c.throwException exception).2.throwCounts rest

theorem stack_throwAll : (c.throwAll exceptions).stack = c.stack.throwAll exceptions := by
  induction exceptions generalizing c with
  | nil => rfl
  | cons exception rest ih => exact ih

theorem sum_throwCounts :
    (c.throwCounts exceptions).sum + (c.throwAll exceptions).stack.depth = c.stack.depth := by
  induction exceptions generalizing c with
  | nil => exact Nat.zero_add _
  | cons exception rest ih =>
    have hrest : ((c.throwException exception).2.throwCounts rest).sum + (c.throwAll (exception :: rest)).stack.depth =
        (c.throwException exception).2.stack.depth := ih
    have hfirst : (c.throwException exception).1 + (c.throwException exception).2.stack.depth = c.stack.depth := by
      rw [← c.stack.unwindCount_add_depth, ← c.stack.depth_throwException exception]
      rfl
    rw [throwCounts, List.sum_cons]
    omega

/-! ### What is recorded -/

/-- The event of an exception with the given outcome. -/
structure ReportsThrow (e : Event) (outcome : Outcome) : Prop where
  component : e.component = .controlFlowStack
  activity : e.activity = .exceptionUnwound
  outcome : e.outcome = outcome

theorem log_throwException (h : c.Drained) (exception : Label) :
    ∃ e, (c.throwException exception).2.log = c.log.push e ∧
      ReportsThrow e (if c.stack.unwind.top.exceptionEdge then .pass else .dropped) := by
  have hmoved : (c.setStack (c.stack.throwException exception)).Drained := ⟨h.registry, h.table⟩
  refine ⟨_, congrArg Context.log (hmoved.record _), rfl, rfl, rfl⟩

/-- One exception for each handler is caught, and the others are not. -/
theorem log_throwAll (h : c.Layered) :
    ∃ new, (c.throwAll exceptions).log = c.log.append new ∧
      List.Forall₂ ReportsThrow new
        (List.replicate (min exceptions.length c.stack.handlers.length) .pass ++
          List.replicate (exceptions.length - c.stack.handlers.length) .dropped) := by
  induction exceptions generalizing c with
  | nil => exact ⟨[], (EventLog.append_nil _).symm, by simp⟩
  | cons exception rest ih =>
    obtain ⟨e, he, hreports⟩ := log_throwException h.drained exception
    have hlocation : (Step.throwException exception).location? ≠ some .scriptExit := nofun
    have hnext : (c.throwException exception).2.Layered := h.apply hlocation
    obtain ⟨new, hnew, hrest⟩ := ih hnext
    refine ⟨e :: new, ?_, ?_⟩
    · show ((c.throwException exception).2.throwAll rest).log = _
      rw [hnew, he]
      simp [EventLog.push, EventLog.append]
    · have hstack : (c.throwException exception).2.stack = c.stack.throwException exception := rfl
      rw [hstack] at hrest
      cases Stack.lands h.bounded h.ascending exception with
      | uncaught hs hedge hthrow =>
        rw [hthrow, (Stack.handlers_scriptBase c.stack).1] at hrest
        rw [hedge] at hreports
        rw [hs]
        simpa [List.replicate_succ] using And.intro hreports hrest
      | caught hs hedge _ hothers _ =>
        rw [hothers] at hrest
        rw [hedge] at hreports
        rw [hs, List.length_cons, List.length_cons, Nat.succ_min_succ, Nat.succ_sub_succ, List.replicate_succ]
        exact .cons hreports hrest

/-- What consecutive exceptions do to a context: they visit the handlers of the running script from the inside out,
each of them once. -/
structure HandlersVisited (c : Context) (exceptions : List Label) : Prop where
  /-- The last exception starts the handler that has as many handlers inside it as there were exceptions before, and
  that handler runs under the labels of all of them. -/
  caught : ∀ n handler, exceptions.length = n + 1 → c.stack.handlers[n]? = some handler →
    (c.throwAll exceptions).stack =
      ⟨{ handler.top with label := exceptions.foldl .join c.pc, exceptionEdge := false }, handler.below⟩
  /-- When there is no handler left, the frame of the script is reached, and it stays as it was. -/
  uncaught : c.stack.handlers.length < exceptions.length → (c.throwAll exceptions).stack = c.stack.scriptBase
  /-- As many exceptions are caught as there are handlers, and the first ones are. -/
  recorded : ∃ new, (c.throwAll exceptions).log = c.log.append new ∧
    List.Forall₂ ReportsThrow new
      (List.replicate (min exceptions.length c.stack.handlers.length) .pass ++
        List.replicate (exceptions.length - c.stack.handlers.length) .dropped)
  /-- The regions that the exceptions say they have left are those that are gone. -/
  counted : (c.throwCounts exceptions).sum + (c.throwAll exceptions).stack.depth = c.stack.depth

/-- After every trace that does not name the end of scripts, exceptions visit the handlers from the inside out. -/
theorem handlers_visited (config : Config) (trace : List Step)
    (locations : ∀ step ∈ trace, step.location? ≠ some .scriptExit) (exceptions : List Label) :
    HandlersVisited ((ofConfig config).replay trace) exceptions := by
  have h := (layered_ofConfig config).replay locations
  refine ⟨fun n handler hn hhandler => ?_, fun hlt => ?_, log_throwAll h, sum_throwCounts⟩
  · rw [stack_throwAll]
    exact Stack.throwAll_of_handler h.bounded h.ascending hn hhandler
  · rw [stack_throwAll]
    exact Stack.throwAll_of_length_lt h.bounded h.ascending hlt

/-- Two handlers, the inner one with a branch inside, and three exceptions. -/
theorem handlers_visited_nested :
    (∀ step ∈ [Step.exceptionRegion 90, .enterScript "a", .exceptionRegion 100, .exceptionRegion 60,
        .branch .secret 40 none], step.location? ≠ some .scriptExit) ∧
      ((ofConfig {}).replay [.exceptionRegion 90, .enterScript "a", .exceptionRegion 100, .exceptionRegion 60,
        .branch .secret 40 none]).stack.handlers.length = 2 ∧
      HandlersVisited ((ofConfig {}).replay [.exceptionRegion 90, .enterScript "a", .exceptionRegion 100,
        .exceptionRegion 60, .branch .secret 40 none]) [.bottom, .policy, .bottom] := by
  have locations : ∀ step ∈ [Step.exceptionRegion 90, .enterScript "a", .exceptionRegion 100, .exceptionRegion 60,
      .branch .secret 40 none], step.location? ≠ some .scriptExit := by decide
  exact ⟨locations, by decide, handlers_visited {} _ locations _⟩

end Context
end InfoFlow

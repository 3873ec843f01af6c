import InfoFlow.Proofs.Atomicity
import InfoFlow.Replay

/-! # Enforcing and permissive runs

The mode decides which writes are blocked and nothing else. To relax a context is to make it permissive and to
forget which writes it has blocked. A step of a relaxed context does what the step of the context itself does
once a blocked write is passed over, so an enforcing and a permissive replay of one trace stay in lockstep. -/

namespace InfoFlow

/-! ### Relaxed contexts -/

namespace EventLog

variable {log : EventLog} {new : List Event}

/-- The log without its blocked writes. -/
def unblocked (log : EventLog) : EventLog := { log with events := log.events.filter (·.outcome != .blocked) }

theorem unblocked_of_not_blocked (h : ∀ e ∈ log.events, e.outcome ≠ .blocked) : log.unblocked = log := by
  have hfilter : log.events.filter (·.outcome != .blocked) = log.events :=
    List.filter_eq_self.mpr fun e he => bne_iff_ne.mpr (h e he)
  rw [unblocked, hfilter]

theorem unblocked_append (h : ∀ e ∈ new, e.outcome ≠ .blocked) :
    (log.append new).unblocked = log.unblocked.append new := by
  have hfilter : new.filter (·.outcome != .blocked) = new :=
    List.filter_eq_self.mpr fun e he => bne_iff_ne.mpr (h e he)
  simp only [unblocked, append, List.filter_append, hfilter]

theorem unblocked_push {e : Event} (h : e.outcome ≠ .blocked) : (log.push e).unblocked = log.unblocked.push e :=
  unblocked_append (List.forall_mem_singleton.mpr h)

end EventLog

namespace Context

variable {c d : Context}

/-- The context in permissive mode, as if it had never blocked a write. -/
def relaxed (c : Context) : Context :=
  { c with globals := { c.globals with mode := .permissive, abort := false }, log := c.log.unblocked }

theorem Drained.relaxed (h : c.Drained) : c.relaxed.Drained := ⟨h.registry, h.table⟩

theorem Drained.relaxed_record (h : c.Drained) {event : Event} (hevent : event.outcome ≠ .blocked)
    (hd : c.relaxed = d) : (c.record event).relaxed = d.record event := by
  rw [← hd, h.record, h.relaxed.record, Context.relaxed, EventLog.unblocked_push hevent]
  rfl

theorem Drained.relaxed_originLabel (h : c.Drained) (url : String) :
    (c.originLabel url).2.relaxed = (c.relaxed.originLabel url).2 := by
  obtain ⟨new, hnew⟩ := c.registry.reported_getLabel url
  have hunblocked : (c.log.append new).unblocked = c.log.unblocked.append new :=
    EventLog.unblocked_append fun e he => (hnew.own e he).outcome
  have hrelaxed := h.relaxed.collect_registry hnew.appended
  simp only [originLabel, h.collect_registry hnew.appended]
  rw [Context.relaxed, hunblocked]
  exact hrelaxed.symm

/-! ### Steps -/

theorem Drained.relaxed_enterScript (h : c.Drained) (url : String) :
    (c.enterScript url).2.relaxed = (c.relaxed.enterScript url).2 := by
  have hsame : c.relaxed.registry.isPolicyOrigin url = c.registry.isPolicyOrigin url := rfl
  unfold enterScript
  rw [hsame]
  split
  · refine Drained.relaxed_record ?_ ?_ ?_
    · exact ⟨h.registry, h.table⟩
    · nofun
    · rfl
  · rw [← h.relaxed_originLabel url]
    refine Drained.relaxed_record ?_ ?_ ?_
    · exact ⟨rfl, rfl⟩
    · nofun
    · rfl

theorem Drained.relaxed_exitScript (h : c.Drained) : c.exitScript.2.relaxed = c.relaxed.exitScript.2 := by
  have hsame : c.relaxed.scripts = c.scripts := rfl
  unfold exitScript
  rw [hsame]
  split
  · rfl
  · refine Drained.relaxed_record ?_ ?_ ?_
    · exact ⟨h.registry, h.table⟩
    · nofun
    · rfl

theorem Drained.relaxed_throwException (h : c.Drained) (exception : Label) :
    (c.throwException exception).2.relaxed = (c.relaxed.throwException exception).2 := by
  unfold throwException
  refine Drained.relaxed_record ?_ ?_ ?_
  · exact ⟨h.registry, h.table⟩
  · simp only [event, EventLog.event]
    split <;> decide
  · rfl

theorem relaxed_loopHeader (c : Context) (condition : Label) (exit : Location) :
    (c.loopHeader condition exit).2.relaxed = (c.relaxed.loopHeader condition exit).2 := by
  have hsame : c.relaxed.stack.isLoopAt exit = c.stack.isLoopAt exit := rfl
  unfold loopHeader
  rw [hsame]
  split <;> rfl

/-- A blocked write is recorded as such and requests a stop, and both are forgotten. -/
theorem Drained.relaxed_guardUpgrade (h : c.Drained) (existing : Label) :
    (c.guardUpgrade existing).2.relaxed = c.relaxed := by
  unfold guardUpgrade
  split
  · rfl
  · have hdrained : Drained { c with globals := c.globals.requestAbort } := ⟨h.registry, h.table⟩
    simp only [hdrained.record, Context.relaxed, EventLog.unblocked, EventLog.push, List.filter_append]
    simp [event, EventLog.event, Globals.requestAbort]

theorem Drained.relaxed_write (h : c.Drained) (existing value : Label) :
    (c.apply (.write existing value)).2.relaxed = c.relaxed := by
  have hguard := h.relaxed_guardUpgrade existing
  simp only [apply, checkedWrite]
  cases hc : c.guardUpgrade existing with
  | mk answer d =>
    rw [hc] at hguard
    cases answer <;> exact hguard

/-- A relaxed context follows the steps of the context itself. -/
theorem Drained.relaxed_apply (h : c.Drained) (step : Step) :
    (c.apply step).2.relaxed = (c.relaxed.apply step).2 := by
  cases step with
  | enterScript url => exact h.relaxed_enterScript url
  | exitScript => exact h.relaxed_exitScript
  | loopHeader condition exit => exact relaxed_loopHeader c condition exit
  | throwException exception => exact h.relaxed_throwException exception
  | write existing value => exact h.relaxed_write existing value
  | branch | call | exceptionRegion | reach | returnValue | join => rfl

theorem answer_relaxed (c : Context) (step : Step) : (c.relaxed.apply step).1 = .ok (c.relaxed.apply step).2.pc := by
  cases step <;> rfl

/-! ### Replays -/

/-- The context after a step; a blocked write is acknowledged and passed over. -/
def passOver (c : Context) (step : Step) : Context :=
  match c.apply step with
  | (.ok _, d) => d
  | (.error _, d) => Replay.acknowledge d

/-- The context after a trace that is replayed to its end. -/
def keepGoing (c : Context) (trace : List Step) : Context := trace.foldl passOver c

theorem passOver_cases (c : Context) (step : Step) :
    c.passOver step = (c.apply step).2 ∨ c.passOver step = Replay.acknowledge (c.apply step).2 := by
  unfold passOver
  split
  · rename_i heq
    exact Or.inl (by rw [heq])
  · rename_i heq
    exact Or.inr (by rw [heq])

theorem Drained.passOver (h : c.Drained) (step : Step) : (c.passOver step).Drained := by
  have hstep := h.perform (.hook step)
  rcases passOver_cases c step with heq | heq
  · rw [heq]
    exact hstep
  · rw [heq]
    exact ⟨hstep.registry, hstep.table⟩

theorem passOver_of_ok {step : Step} {pc : Label} (h : c.apply step = (.ok pc, d)) : c.passOver step = d := by
  rw [passOver, h]

/-- Where the context itself passes over a blocked write, a relaxed one writes. -/
theorem Drained.apply_relaxed (h : c.Drained) (step : Step) :
    c.relaxed.apply step = (.ok (c.passOver step).pc, (c.passOver step).relaxed) := by
  have hnext : (c.relaxed.apply step).2 = (c.passOver step).relaxed := by
    rw [← h.relaxed_apply step]
    rcases passOver_cases c step with heq | heq <;> rw [heq]
    rfl
  refine Prod.ext ?_ hnext
  rw [answer_relaxed, hnext]
  rfl

theorem Drained.relaxed_passOver (h : c.Drained) (step : Step) :
    (c.passOver step).relaxed = c.relaxed.passOver step :=
  (passOver_of_ok (h.apply_relaxed step)).symm

theorem Drained.relaxed_keepGoing (h : c.Drained) (trace : List Step) :
    (c.keepGoing trace).relaxed = c.relaxed.keepGoing trace := by
  induction trace generalizing c with
  | nil => rfl
  | cons step rest ih =>
    have hrest := ih (h.passOver step)
    rwa [h.relaxed_passOver step] at hrest

/-- A replay that keeps going comes to the end of the trace. -/
theorem steps_keepGoing (c : Context) (trace : List Step) (index blocked : Nat) :
    ∃ n, (Replay.steps true index blocked c trace).2 = .finished n (c.keepGoing trace) := by
  induction trace generalizing c index blocked with
  | nil => exact ⟨blocked, rfl⟩
  | cons step rest ih =>
    simp only [Replay.steps, keepGoing, List.foldl_cons, passOver]
    cases hc : c.apply step with
    | mk answer d =>
      cases answer with
      | ok pc => exact ih d (index + 1) blocked
      | error e => exact ih (Replay.acknowledge d) (index + 1) (blocked + 1)

theorem ending_of_ok {step : Step} {rest : List Step} {pc : Label} {goOn : Bool} {index blocked : Nat}
    (h : c.apply step = (.ok pc, d)) :
    (Replay.steps goOn index blocked c (step :: rest)).2 = (Replay.steps goOn (index + 1) blocked d rest).2 := by
  rw [Replay.steps, h]

/-- A replay in permissive mode blocks nothing. -/
theorem Drained.steps_relaxed (h : c.Drained) (trace : List Step) (index blocked : Nat) :
    (Replay.steps true index blocked c.relaxed trace).2 = .finished blocked (c.relaxed.keepGoing trace) := by
  induction trace generalizing c index with
  | nil => rfl
  | cons step rest ih =>
    rw [ending_of_ok (h.apply_relaxed step), ih (h.passOver step), h.relaxed_passOver step]
    rfl

/-- An enforcing and a permissive context differ only in which writes they block and in what follows from that
for the host. -/
structure Lockstep (strict lenient : Context) : Prop where
  stack : lenient.stack = strict.stack
  scripts : lenient.scripts = strict.scripts
  registry : lenient.registry = strict.registry
  table : lenient.table = strict.table
  returnLabel : lenient.globals.returnLabel = strict.globals.returnLabel
  pc : lenient.globals.pc = strict.globals.pc
  abort : lenient.globals.abort = false
  unblocked : ∀ e ∈ lenient.log.events, e.outcome ≠ .blocked
  log : lenient.log = strict.log.unblocked

theorem lockstep_relaxed (c : Context) : Lockstep c c.relaxed where
  stack := rfl
  scripts := rfl
  registry := rfl
  table := rfl
  returnLabel := rfl
  pc := rfl
  abort := rfl
  unblocked _ he := bne_iff_ne.mp (List.mem_filter.mp he).2
  log := rfl

theorem relaxed_ofConfig (config : Config) :
    (ofConfig { config with enforce := true }).relaxed = ofConfig { config with enforce := false } := by
  have hlog := EventLog.unblocked_of_not_blocked (not_blocked_ofConfig { config with enforce := true })
  rw [relaxed, hlog]
  rfl

/-- Replays of one trace that keep going at blocked writes, one enforcing and one permissive, are in lockstep after
every step, and the permissive one blocks nothing. -/
theorem keepGoing_lockstep (config : Config) (trace : List Step) :
    let strict := ofConfig { config with enforce := true }
    let lenient := ofConfig { config with enforce := false }
    (∀ n, Lockstep (strict.keepGoing (trace.take n)) (lenient.keepGoing (trace.take n))) ∧
      (∃ blocked, (Replay.steps true 0 0 strict trace).2 = .finished blocked (strict.keepGoing trace)) ∧
      (Replay.steps true 0 0 lenient trace).2 = .finished 0 (lenient.keepGoing trace) := by
  have hdrained := drained_ofConfig { config with enforce := true }
  simp only [← relaxed_ofConfig config]
  refine ⟨fun n => ?_, steps_keepGoing _ trace 0 0, hdrained.steps_relaxed trace 0 0⟩
  rw [← hdrained.relaxed_keepGoing (trace.take n)]
  exact lockstep_relaxed _

end Context
end InfoFlow

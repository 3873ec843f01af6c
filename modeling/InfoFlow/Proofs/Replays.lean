import InfoFlow.Proofs.Lockstep
import InfoFlow.Proofs.SavedTraces
import InfoFlow.Replay

/-! # Replays that halt and replays that keep going

A replay that keeps going prints one line for every step and acknowledges each blocked write, so the next step finds
the context as if that write were not there. A halting replay prints the same lines up to the first blocked step.
How many steps are blocked can also be read off the log, where each of them leaves one event. -/

namespace InfoFlow

/-! ### Refusals in the log -/

namespace EventLog

variable {log : EventLog} {new : List Event}

/-- How many events of a log have the code of a blocked write. -/
def refusals (log : EventLog) : Nat := log.events.countP (·.errorCode == some sensitiveUpgradeCode)

theorem refusals_append (h : ∀ e ∈ new, e.errorCode ≠ some sensitiveUpgradeCode) :
    (log.append new).refusals = log.refusals := by
  have hnew : new.countP (·.errorCode == some sensitiveUpgradeCode) = 0 :=
    List.countP_eq_zero.mpr fun e he => by simpa using h e he
  rw [refusals, append, List.countP_append, hnew, Nat.add_zero, refusals]

end EventLog

namespace Context

variable {c d : Context}

theorem Drained.refusals_record (h : c.Drained) {event : Event}
    (hcode : event.errorCode ≠ some sensitiveUpgradeCode) : (c.record event).log.refusals = c.log.refusals := by
  rw [h.record]
  exact EventLog.refusals_append (List.forall_mem_singleton.mpr hcode)

theorem Drained.refusals_originLabel (h : c.Drained) (url : String) :
    (c.originLabel url).2.log.refusals = c.log.refusals := by
  obtain ⟨new, hnew⟩ := c.registry.reported_getLabel url
  simp only [originLabel, h.collect_registry hnew.appended]
  exact EventLog.refusals_append fun e he => (hnew.own e he).code

theorem Drained.refusals_enterScript (h : c.Drained) (url : String) :
    (c.enterScript url).2.log.refusals = c.log.refusals := by
  unfold enterScript
  split
  · exact Drained.refusals_record ⟨h.registry, h.table⟩ nofun
  · rw [← h.refusals_originLabel url]
    exact Drained.refusals_record ⟨rfl, rfl⟩ nofun

theorem Drained.refusals_exitScript (h : c.Drained) : c.exitScript.2.log.refusals = c.log.refusals := by
  unfold exitScript
  split
  · rfl
  · exact Drained.refusals_record ⟨h.registry, h.table⟩ nofun

theorem Drained.refusals_throwException (h : c.Drained) (exception : Label) :
    (c.throwException exception).2.log.refusals = c.log.refusals :=
  Drained.refusals_record ⟨h.registry, h.table⟩ nofun

theorem refusals_loopHeader (condition : Label) (exit : Location) :
    (c.loopHeader condition exit).2.log.refusals = c.log.refusals := by
  unfold loopHeader
  split <;> rfl

/-- A blocked write leaves one event, a permitted one none. -/
theorem Drained.refusals_write (h : c.Drained) (existing value : Label) :
    (c.apply (.write existing value)).2.log.refusals =
      c.log.refusals + if (c.apply (.write existing value)).1.isOk then 0 else 1 := by
  have hdrained : Drained { c with globals := c.globals.requestAbort } := ⟨h.registry, h.table⟩
  by_cases hpermits : c.globals.mode.permits c.pc existing = true
  · simp [apply, checkedWrite, guardUpgrade, hpermits, Except.isOk, Except.toBool]
  · simp [apply, checkedWrite, guardUpgrade, hpermits, hdrained.record, EventLog.refusals, EventLog.push, Except.isOk,
      Except.toBool]

/-- A step leaves an event with the code of a blocked write exactly if it is answered by an error. -/
theorem Drained.refusals_apply (h : c.Drained) (step : Step) :
    (c.apply step).2.log.refusals = c.log.refusals + if (c.apply step).1.isOk then 0 else 1 := by
  cases step with
  | enterScript url => exact h.refusals_enterScript url
  | exitScript => exact h.refusals_exitScript
  | loopHeader condition exit => exact refusals_loopHeader condition exit
  | throwException exception => exact h.refusals_throwException exception
  | write existing value => exact h.refusals_write existing value
  | branch | call | exceptionRegion | reach | returnValue | join => rfl

theorem log_passOver (c : Context) (step : Step) : (c.passOver step).log = (c.apply step).2.log := by
  rcases passOver_cases c step with heq | heq <;> rw [heq]
  rfl

/-! ### Answers -/

/-- The answers of a replay that keeps going. -/
def outcomes (c : Context) (trace : List Step) : List (Except PolicyError Label) :=
  trace.mapIdx fun i step => ((c.keepGoing (trace.take i)).apply step).1

@[simp] theorem outcomes_cons (step : Step) (rest : List Step) :
    c.outcomes (step :: rest) = (c.apply step).1 :: (c.passOver step).outcomes rest := by
  simp [outcomes, List.mapIdx_cons, keepGoing]

/-- The log of a replay tells how many of its steps were blocked. -/
theorem Drained.refusals_keepGoing (h : c.Drained) (trace : List Step) :
    (c.keepGoing trace).log.refusals = c.log.refusals + (c.outcomes trace).countP (!·.isOk) := by
  induction trace generalizing c with
  | nil => rfl
  | cons step rest ih =>
    have hrest := ih (h.passOver step)
    rw [log_passOver, h.refusals_apply step] at hrest
    rw [outcomes_cons, List.countP_cons]
    refine hrest.trans ?_
    cases (c.apply step).1.isOk with
    | true => simp
    | false =>
      simp
      omega

theorem refusals_ofConfig (config : Config) : (ofConfig config).log.refusals = 0 := by
  obtain ⟨r, t, a, b, hr, ht, heq⟩ := ofConfig_eq config
  rw [heq]
  refine (EventLog.refusals_append fun e he => ?_).trans rfl
  rcases List.mem_append.mp he with he | he
  · exact (hr.own e he).code
  · exact (ht.own e he).code

end Context

namespace Replay

variable {c : Context} {index blocked : Nat} {trace : List Step}

/-! ### Lines -/

/-- The line of step number `index`, which acts on `c`. -/
def line (index : Nat) (c : Context) (step : Step) : String :=
  match c.apply step with
  | (.ok pc, d) => passedLine index pc d.stack.depth
  | (.error e, _) => blockedLine index e

/-- The lines of a replay that keeps going, for the steps from number `index` on. -/
def stepLines (index : Nat) (c : Context) (trace : List Step) : List String :=
  trace.mapIdx fun i step => line (index + i) (c.keepGoing (trace.take i)) step

@[simp] theorem stepLines_cons (index : Nat) (c : Context) (step : Step) (rest : List Step) :
    stepLines index c (step :: rest) = line index c step :: stepLines (index + 1) (c.passOver step) rest := by
  simp [stepLines, List.mapIdx_cons, Context.keepGoing, Nat.add_comm, Nat.add_left_comm]

/-- A replay that keeps going reports every step and counts those that are answered by an error. -/
theorem steps_going (index blocked : Nat) (c : Context) (trace : List Step) :
    steps true index blocked c trace =
      (stepLines index c trace, .finished (blocked + (c.outcomes trace).countP (!·.isOk)) (c.keepGoing trace)) := by
  induction trace generalizing index blocked c with
  | nil => rfl
  | cons step rest ih =>
    rw [stepLines_cons, Context.outcomes_cons, List.countP_cons, Context.keepGoing, List.foldl_cons,
      Context.passOver, line, steps]
    cases hc : c.apply step with
    | mk answer d =>
      cases answer with
      | ok pc => simp [ih, Except.isOk, Except.toBool, Context.keepGoing]
      | error e =>
        simp [ih, Except.isOk, Except.toBool, Context.keepGoing]
        omega

/-- Without a blocked step, halting replays do not halt. -/
theorem steps_halting_of_ok (hok : ∀ answer ∈ c.outcomes trace, answer.isOk = true) :
    steps false index blocked c trace = (stepLines index c trace, .finished blocked (c.keepGoing trace)) := by
  induction trace generalizing index c with
  | nil => rfl
  | cons step rest ih =>
    rw [Context.outcomes_cons, List.forall_mem_cons] at hok
    rw [stepLines_cons, Context.keepGoing, List.foldl_cons, line, steps]
    cases hc : c.apply step with
    | mk answer d =>
      rw [Context.passOver, hc] at hok ⊢
      cases answer with
      | ok pc => simp [ih hok.2, Context.keepGoing]
      | error e => cases hok.1

/-- A halting replay halts at the first step that is answered by an error and reports the steps up to that one. -/
theorem steps_halting_of_error {n : Nat} {e : PolicyError} (herror : (c.outcomes trace)[n]? = some (.error e))
    (hok : ∀ answer ∈ (c.outcomes trace).take n, answer.isOk = true) :
    steps false index blocked c trace = ((stepLines index c trace).take (n + 1), .halted (index + n) e) := by
  induction trace generalizing index c n with
  | nil => cases herror
  | cons step rest ih =>
    rw [Context.outcomes_cons] at herror hok
    rw [stepLines_cons, line, steps]
    cases hc : c.apply step with
    | mk answer d =>
      rw [Context.passOver, hc] at herror hok ⊢
      cases n with
      | zero =>
        obtain rfl : answer = .error e := Option.some.inj herror
        rfl
      | succ n =>
        rw [List.take_succ_cons, List.forall_mem_cons] at hok
        cases answer with
        | ok pc =>
          simp [ih herror hok.2]
          omega
        | error e => cases hok.1

/-- An answer of a replay is that of its step. -/
theorem exists_step_of_outcomes {n : Nat} {answer : Except PolicyError Label}
    (h : (c.outcomes trace)[n]? = some answer) :
    ∃ step, (trace)[n]? = some step ∧
      (c.keepGoing (trace.take n)).apply step = (answer, ((c.keepGoing (trace.take n)).apply step).2) := by
  simp only [Context.outcomes, List.getElem?_mapIdx, Option.map_eq_some_iff] at h
  obtain ⟨step, hstep, hanswer⟩ := h
  exact ⟨step, hstep, Prod.ext hanswer rfl⟩

/-- The line of a step that is answered by an error tells which one. -/
theorem getElem?_stepLines_of_error (index : Nat) {n : Nat} {e : PolicyError}
    (h : (c.outcomes trace)[n]? = some (.error e)) :
    (stepLines index c trace)[n]? = some (blockedLine (index + n) e) := by
  obtain ⟨step, hstep, happly⟩ := exists_step_of_outcomes h
  rw [stepLines, List.getElem?_mapIdx, hstep, Option.map_some, line, happly]

/-- The line of any other step tells the program counter and the depth behind it. -/
theorem getElem?_stepLines_of_ok (index : Nat) {n : Nat} {pc : Label}
    (h : (c.outcomes trace)[n]? = some (.ok pc)) :
    (stepLines index c trace)[n]? =
      some (passedLine (index + n) pc (c.keepGoing (trace.take (n + 1))).stack.depth) := by
  obtain ⟨step, hstep, happly⟩ := exists_step_of_outcomes h
  have hnext : c.keepGoing (trace.take (n + 1)) = (c.keepGoing (trace.take n)).passOver step := by
    rw [List.take_add_one, hstep]
    exact List.foldl_append
  rw [stepLines, List.getElem?_mapIdx, hstep, Option.map_some, line, happly, hnext, Context.passOver_of_ok happly]

/-- A step of a trace is refused for one reason only. -/
theorem error_of_outcomes {n : Nat} {e : PolicyError} (h : (c.outcomes trace)[n]? = some (.error e)) :
    ∃ pc label, e = .sensitiveUpgrade pc label := by
  obtain ⟨step, _, happly⟩ := exists_step_of_outcomes h
  have hanswer := congrArg Prod.fst happly
  rw [Context.answer_apply] at hanswer
  cases step with
  | write existing value =>
    simp only at hanswer
    split at hanswer
    · cases hanswer
    · exact ⟨_, _, (Except.error.inj hanswer).symm⟩
  | _ => cases hanswer

theorem length_stepLines (index : Nat) (c : Context) (trace : List Step) :
    (stepLines index c trace).length = trace.length := List.length_mapIdx

theorem exists_line_of_mem {text : String} (h : text ∈ stepLines index c trace) : ∃ i d step, text = line i d step := by
  rw [stepLines, List.mem_mapIdx] at h
  obtain ⟨i, hi, rfl⟩ := h
  exact ⟨_, _, _, rfl⟩

theorem exists_first_error {answers : List (Except PolicyError Label)}
    (h : ¬∀ answer ∈ answers, answer.isOk = true) :
    ∃ n e, answers[n]? = some (.error e) ∧ ∀ answer ∈ answers.take n, answer.isOk = true := by
  induction answers with
  | nil => exact absurd (List.forall_mem_nil _) h
  | cons answer rest ih =>
    cases answer with
    | error e => exact ⟨0, e, rfl, List.forall_mem_nil _⟩
    | ok pc =>
      have hrest : ¬∀ answer ∈ rest, answer.isOk = true := fun hall => h (List.forall_mem_cons.mpr ⟨rfl, hall⟩)
      obtain ⟨n, e, herror, hok⟩ := ih hrest
      exact ⟨n + 1, e, herror, List.forall_mem_cons.mpr ⟨rfl, hok⟩⟩

/-! ### Runs -/

namespace Run

variable {short long run : Run} {more : List String}

theorem toList_text (run : Run) : run.text.toList = run.lines.flatMap fun line => line.toList ++ ['\n'] := by
  simp [text, String.toList_join, List.flatMap_map]

theorem toList_text_append (h : long.lines = short.lines ++ more) :
    long.text.toList = short.text.toList ++ more.flatMap fun line => line.toList ++ ['\n'] := by
  rw [toList_text, toList_text, h, List.flatMap_append]

/-- A run with more lines has another text. -/
theorem text_ne (h : long.lines = short.lines ++ more) (hmore : more ≠ []) : short.text ≠ long.text := by
  intro heq
  have happend := toList_text_append h
  rw [heq, List.self_eq_append_right] at happend
  cases more with
  | nil => exact hmore rfl
  | cons line rest => simp at happend

theorem suffix_text {line : String} (h : run.lines.getLast? = some line) :
    (line ++ "\n").toList <:+ run.text.toList := by
  obtain ⟨before, hlines⟩ := List.getLast?_eq_some_iff.mp h
  rw [toList_text, hlines, List.flatMap_append, List.flatMap_singleton, String.toList_append]
  exact List.suffix_append _ _

/-- The lines of a run that begin with a text. -/
def linesWith (run : Run) (start : String) : List String :=
  run.lines.filter fun line => start.toList.isPrefixOf line.toList

end Run

/-! ### What lines begin with -/

/-- The line of a step looks like that of a step, and not like that of the count. -/
theorem start_line (index : Nat) (c : Context) (step : Step) :
    "ifc step=".toList.isPrefixOf (line index c step).toList = true ∧
      "ifc blocked=".toList.isPrefixOf (line index c step).toList = false := by
  unfold line
  split
  · simp [passedLine, List.isPrefixOf]
  · simp [blockedLine, List.isPrefixOf]

theorem filter_stepLines (index : Nat) (c : Context) (trace : List Step) :
    (stepLines index c trace).filter (fun line => "ifc step=".toList.isPrefixOf line.toList) =
        stepLines index c trace ∧
      (stepLines index c trace).filter (fun line => "ifc blocked=".toList.isPrefixOf line.toList) = [] := by
  refine ⟨List.filter_eq_self.mpr fun text htext => ?_, List.filter_eq_nil_iff.mpr fun text htext => ?_⟩
  · obtain ⟨i, d, step, rfl⟩ := exists_line_of_mem htext
    exact (start_line i d step).1
  · obtain ⟨i, d, step, rfl⟩ := exists_line_of_mem htext
    exact Bool.eq_false_iff.mp (start_line i d step).2

/-- Of the lines that sum up, none looks like that of a step and one is that of the count. -/
theorem filter_summary (total blocked : Nat) (c : Context) :
    (summary total blocked c).filter (fun line => "ifc step=".toList.isPrefixOf line.toList) = [] ∧
      (summary total blocked c).filter (fun line => "ifc blocked=".toList.isPrefixOf line.toList) =
        ["ifc blocked=" ++ toString blocked] := by
  constructor <;> simp [summary, List.isPrefixOf]

theorem blockedLine_eq (index : Nat) {e : PolicyError} (h : e.code = "FE-IFC-0003") :
    blockedLine index e = "ifc step=" ++ toString index ++ " blocked=FE-IFC-0003 (" ++ e.message ++ ")" := by
  have hstart : " blocked=FE-IFC-0003 (" = " blocked=" ++ "FE-IFC-0003" ++ " (" := by simp
  rw [blockedLine, h, hstart]
  simp only [String.append_assoc]

/-! ### Both ways of replaying -/

/-- The command replays the trace that it reads. -/
theorem command_of_read {files : String → Contents} {arguments : List String} {asked : Arguments} {config : Config}
    (hasked : Arguments.parse arguments = .ok asked) (hconfig : readConfig files asked.config = .ok config)
    (htrace : readTrace (files asked.trace) = some trace) :
    command files arguments = .ofTrace asked.keepGoing config asked.trace trace := by
  simp only [command, hasked, hconfig, htrace]

variable {config : Config}

/-- The count in the summary is that of the log. -/
theorem refusals_keepGoing_ofConfig (config : Config) (trace : List Step) :
    ((Context.ofConfig config).keepGoing trace).log.refusals =
      ((Context.ofConfig config).outcomes trace).countP (!·.isOk) := by
  have hcount := (Context.drained_ofConfig config).refusals_keepGoing trace
  rwa [Context.refusals_ofConfig, Nat.zero_add] at hcount

theorem ofTrace_going (config : Config) (path : String) (trace : List Step) :
    Run.ofTrace true config path trace =
      ⟨stepLines 0 (.ofConfig config) trace ++
          summary trace.length ((Context.ofConfig config).keepGoing trace).log.refusals
            ((Context.ofConfig config).keepGoing trace),
        none⟩ := by
  simp only [Run.ofTrace, report, steps_going, refusals_keepGoing_ofConfig, Nat.zero_add, Option.map_none]

theorem ofTrace_halting_of_ok (path : String)
    (hok : ∀ answer ∈ (Context.ofConfig config).outcomes trace, answer.isOk = true) :
    Run.ofTrace false config path trace = Run.ofTrace true config path trace := by
  have hnone : ((Context.ofConfig config).outcomes trace).countP (!·.isOk) = 0 :=
    List.countP_eq_zero.mpr fun answer hanswer => by simp [hok answer hanswer]
  rw [ofTrace_going, refusals_keepGoing_ofConfig, hnone]
  simp only [Run.ofTrace, report, steps_halting_of_ok hok, Option.map_none]

theorem ofTrace_halting_of_error (path : String) {n : Nat} {e : PolicyError}
    (herror : ((Context.ofConfig config).outcomes trace)[n]? = some (.error e))
    (hok : ∀ answer ∈ ((Context.ofConfig config).outcomes trace).take n, answer.isOk = true) :
    Run.ofTrace false config path trace =
      ⟨(stepLines 0 (.ofConfig config) trace).take (n + 1), some (.halted n e path)⟩ := by
  simp only [Run.ofTrace, report, steps_halting_of_error herror hok, Nat.zero_add, Option.map_some]

/-- The steps of a trace act on `c` in turn, and blocked writes are passed over. A replay that keeps going prints one
line for each of them and then how many were blocked. -/
structure ReportsAll (c : Context) (trace : List Step) (going : Run) : Prop where
  finishes : going.failure = none
  ending : (steps true 0 0 c trace).2 = .finished ((c.outcomes trace).countP (!·.isOk)) (c.keepGoing trace)
  /-- The lines of the steps come before all others. -/
  steps : going.linesWith "ifc step=" = going.lines.take trace.length
  length : (going.linesWith "ifc step=").length = trace.length
  passed : ∀ (i : Nat) (pc : Label), (c.outcomes trace)[i]? = some (.ok pc) →
    going.lines[i]? = some ("ifc step=" ++ toString i ++ " pc=" ++ pc.text ++
      " depth=" ++ toString (c.keepGoing (trace.take (i + 1))).stack.depth)
  blocked : ∀ (i : Nat) (e : PolicyError), (c.outcomes trace)[i]? = some (.error e) →
    going.lines[i]? = some ("ifc step=" ++ toString i ++ " blocked=FE-IFC-0003 (" ++ e.message ++ ")") ∧
      ∃ pc label : Label, e.message =
        "no-sensitive-upgrade violation: pc " ++ pc.text ++ " cannot upgrade a value labeled " ++ label.text
  /-- One line tells the number of blocked steps. -/
  count : going.linesWith "ifc blocked=" = ["ifc blocked=" ++ toString ((c.outcomes trace).countP (!·.isOk))]
  /-- As many events of the log have the code of a blocked write. -/
  log : (c.keepGoing trace).log.events.countP (·.errorCode == some "FE-IFC-0003") =
    (c.outcomes trace).countP (!·.isOk)

theorem reportsAll_ofTrace (config : Config) (path : String) (trace : List Step) :
    ReportsAll (.ofConfig config) trace (.ofTrace true config path trace) := by
  obtain ⟨hsteps, hnone⟩ := filter_stepLines 0 (.ofConfig config) trace
  obtain ⟨hsummary, hcount⟩ := filter_summary trace.length
    (((Context.ofConfig config).outcomes trace).countP (!·.isOk)) ((Context.ofConfig config).keepGoing trace)
  have hlength := length_stepLines 0 (.ofConfig config) trace
  have hlines : (Run.ofTrace true config path trace).linesWith "ifc step=" = stepLines 0 (.ofConfig config) trace := by
    rw [ofTrace_going, refusals_keepGoing_ofConfig, Run.linesWith, List.filter_append, hsteps, hsummary,
      List.append_nil]
  -- A step has its line at its number, since the lines of the steps come first.
  have hline {i : Nat} {text : String} (h : (stepLines 0 (.ofConfig config) trace)[i]? = some text) :
      (Run.ofTrace true config path trace).lines[i]? = some text := by
    have hi := (List.getElem?_eq_some_iff.mp h).1
    rw [ofTrace_going, List.getElem?_append_left hi, h]
  refine
    { finishes := by rw [ofTrace_going]
      ending := by rw [steps_going, Nat.zero_add]
      steps := ?_
      length := by rw [hlines, hlength]
      passed := fun i pc h => ?_
      blocked := fun i e h => ?_
      count := ?_
      log := refusals_keepGoing_ofConfig config trace }
  · rw [hlines, ofTrace_going, ← hlength, List.take_left]
  · have hpassed := hline (getElem?_stepLines_of_ok 0 h)
    rwa [Nat.zero_add] at hpassed
  · have hblocked := hline (getElem?_stepLines_of_error 0 h)
    obtain ⟨pc, label, rfl⟩ := error_of_outcomes h
    rw [Nat.zero_add, blockedLine_eq i rfl] at hblocked
    exact ⟨hblocked, pc, label, rfl⟩
  · rw [ofTrace_going, refusals_keepGoing_ofConfig, Run.linesWith, List.filter_append, hnone, hcount,
      List.nil_append]

/-- A halting replay of a trace from `path` agrees with one that keeps going. -/
structure Agree (c : Context) (path : String) (trace : List Step) (halting going : Run) : Prop where
  /-- What is printed are the lines, each with a line break behind it. -/
  printed : ∀ run ∈ [halting, going], run.text.toList = run.lines.flatMap fun line => line.toList ++ ['\n']
  starts : halting.text.toList <+: going.text.toList
  text_eq_iff : halting.text = going.text ↔ ∀ answer ∈ c.outcomes trace, answer.isOk = true
  /-- If a step is blocked, the halting replay ends with the line of the first one and fails. -/
  halts : (∀ answer ∈ c.outcomes trace, answer.isOk = true) ∧ halting = going ∨
    ∃ n e, (c.outcomes trace)[n]? = some (.error e) ∧ (∀ answer ∈ (c.outcomes trace).take n, answer.isOk = true) ∧
      halting.lines = going.lines.take (n + 1) ∧
      ("ifc step=" ++ toString n ++ " blocked=FE-IFC-0003 (" ++ e.message ++ ")" ++ "\n").toList <:+
        halting.text.toList ∧
      halting.failure = some (.halted n e path)
  going : ReportsAll c trace going

theorem agree_of_ok (path : String)
    (hok : ∀ answer ∈ (Context.ofConfig config).outcomes trace, answer.isOk = true) :
    Agree (.ofConfig config) path trace (.ofTrace false config path trace) (.ofTrace true config path trace) := by
  rw [ofTrace_halting_of_ok path hok]
  exact
    { printed := fun run _ => run.toList_text
      starts := List.prefix_rfl
      text_eq_iff := iff_of_true rfl hok
      halts := .inl ⟨hok, rfl⟩
      going := reportsAll_ofTrace config path trace }

/-- At the first blocked step a halting replay leaves out the lines of the later steps and the summary. -/
theorem agree_of_error (path : String) {n : Nat} {e : PolicyError}
    (herror : ((Context.ofConfig config).outcomes trace)[n]? = some (.error e))
    (hok : ∀ answer ∈ ((Context.ofConfig config).outcomes trace).take n, answer.isOk = true) :
    Agree (.ofConfig config) path trace (.ofTrace false config path trace) (.ofTrace true config path trace) := by
  have hgoing := ofTrace_going config path trace
  have hhalting := ofTrace_halting_of_error path herror hok
  have hline := getElem?_stepLines_of_error 0 herror
  have hn : n < (stepLines 0 (.ofConfig config) trace).length := (List.getElem?_eq_some_iff.mp hline).1
  have hmore : (Run.ofTrace true config path trace).lines =
      (Run.ofTrace false config path trace).lines ++ ((stepLines 0 (.ofConfig config) trace).drop (n + 1) ++
        summary trace.length ((Context.ofConfig config).keepGoing trace).log.refusals
          ((Context.ofConfig config).keepGoing trace)) := by
    rw [hgoing, hhalting, ← List.append_assoc, List.take_append_drop]
  have hlast : (Run.ofTrace false config path trace).lines.getLast? = some (blockedLine n e) := by
    rw [Nat.zero_add] at hline
    rw [hhalting, List.getLast?_take]
    simp [hline]
  have hcode : e.code = "FE-IFC-0003" := by
    obtain ⟨pc, label, rfl⟩ := error_of_outcomes herror
    rfl
  have hblocked : ¬∀ answer ∈ (Context.ofConfig config).outcomes trace, answer.isOk = true := by
    intro hall
    cases hall (.error e) (List.mem_of_getElem? herror)
  refine
    { printed := fun run _ => run.toList_text
      starts := ⟨_, (Run.toList_text_append hmore).symm⟩
      text_eq_iff := iff_of_false (Run.text_ne hmore (List.append_ne_nil_of_right_ne_nil _ nofun)) hblocked
      halts := .inr ⟨n, e, herror, hok, ?_, ?_, ?_⟩
      going := reportsAll_ofTrace config path trace }
  · rw [hgoing, hhalting, List.take_append_of_le_length (Nat.succ_le_of_lt hn)]
  · rw [← blockedLine_eq n hcode]
    exact Run.suffix_text hlast
  · rw [hhalting]

theorem agree_ofTrace (config : Config) (path : String) (trace : List Step) :
    Agree (.ofConfig config) path trace (.ofTrace false config path trace) (.ofTrace true config path trace) := by
  by_cases hok : ∀ answer ∈ (Context.ofConfig config).outcomes trace, answer.isOk = true
  · exact agree_of_ok path hok
  · obtain ⟨n, e, herror, hbefore⟩ := exists_first_error hok
    exact agree_of_error path herror hbefore

/-- For every configuration and every trace the two ways of replaying agree, and so does the command on arguments that
ask for the one and for the other. -/
theorem replays_agree (config : Config) (path : String) (trace : List Step) :
    Agree (.ofConfig config) path trace (.ofTrace false config path trace) (.ofTrace true config path trace) ∧
      ∀ (files : String → Contents) (configPath : Option String) (short long : List String),
        Arguments.parse short = .ok ⟨path, configPath, false⟩ → Arguments.parse long = .ok ⟨path, configPath, true⟩ →
        readConfig files configPath = .ok config → readTrace (files path) = some trace →
        Agree (.ofConfig config) path trace (command files short) (command files long) := by
  have hagree := agree_ofTrace config path trace
  refine ⟨hagree, fun files configPath short long hshort hlong hconfig htrace => ?_⟩
  rw [command_of_read hshort hconfig htrace, command_of_read hlong hconfig htrace]
  exact hagree

/-- A public place is written under a secret condition, and control goes on. -/
def blockedTrace : List Step := [.branch .secret 9 none, .write .bottom .bottom, .reach 9]

theorem replays_agree_blocked :
    let files : String → Contents := fun _ => .text (saveTrace blockedTrace)
    Arguments.parse ["--trace", "t"] = .ok ⟨"t", none, false⟩ ∧
      Arguments.parse ["--trace", "t", "--keep-going"] = .ok ⟨"t", none, true⟩ ∧
      readConfig files none = .ok {} ∧ readTrace (files "t") = some blockedTrace ∧
      (command files ["--trace", "t"]).text ≠ (command files ["--trace", "t", "--keep-going"]).text ∧
      (command files ["--trace", "t", "--keep-going"]).lines[1]? = some ("ifc step=1 blocked=FE-IFC-0003 " ++
        "(no-sensitive-upgrade violation: pc 0x2 cannot upgrade a value labeled 0x0)") ∧
      (command files ["--trace", "t", "--keep-going"]).linesWith "ifc blocked=" = ["ifc blocked=1"] := by
  intro files
  have hshort : Arguments.parse ["--trace", "t"] = .ok ⟨"t", none, false⟩ := by decide
  have hlong : Arguments.parse ["--trace", "t", "--keep-going"] = .ok ⟨"t", none, true⟩ := by decide
  have htrace : readTrace (files "t") = some blockedTrace :=
    Step.loadTrace?_of_writesTrace (Step.writesTrace_saveTrace blockedTrace)
  have houtcomes : (Context.ofConfig {}).outcomes blockedTrace =
      [.ok .secret, .error (.sensitiveUpgrade .secret .bottom), .ok .bottom] := by decide +kernel
  have hagree := (replays_agree {} "t" blockedTrace).2 files none _ _ hshort hlong rfl htrace
  refine ⟨hshort, hlong, rfl, htrace, mt hagree.text_eq_iff.mp ?_, ?_, ?_⟩
  · rw [houtcomes]
    decide
  · refine (hagree.going.blocked 1 (.sensitiveUpgrade .secret .bottom) ?_).1.trans ?_
    · rw [houtcomes]
      rfl
    · decide +kernel
  · rw [hagree.going.count, houtcomes]
    decide +kernel

end Replay
end InfoFlow

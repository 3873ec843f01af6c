import InfoFlow.Proofs.Recording
import InfoFlow.Proofs.StackMoves

/-! # The copy of the program counter

The globals hold a copy of the head's label for hosts that do not look at the stack. Every change of the stack
goes along with one of the copy, and what else an operation does touches neither, so the copy and the labels
that operations answer with are always the head's label. Below all regions the outermost frame stays, whose end
no instruction reaches. -/

namespace InfoFlow

/-! ### The outermost frame -/

namespace Stack

/-- Where the outermost frame ends, and the register of its guard. -/
def base (s : Stack) : Option (Location × Option Register) :=
  s.frames.head?.map fun f => (f.exit, f.guardRegister)

variable {s t : Stack}

theorem frames_ne_nil : s.frames ≠ [] := by
  simp [frames]

theorem base_eq_of_suffix (h : t.top :: t.below <:+ s.top :: s.below) : t.base = s.base := by
  obtain ⟨inner, hinner⟩ := h
  simp only [base, frames, List.head?_reverse, ← hinner]
  rw [List.getLast?_append, List.getLast?_cons, Option.some_or]

/-- A frame keeps its end and its register as long as it is there. -/
theorem base_raise (hraised : s.top.RaisedTo t.top) (hbelow : t.below = s.below) : t.base = s.base := by
  simp only [base, frames, List.head?_reverse, hbelow]
  cases s.below with
  | nil => exact congrArg some (Prod.ext hraised.exit hraised.guardRegister)
  | cons outer rest => rw [List.getLast?_cons_cons, List.getLast?_cons_cons]

theorem base_moves {ordinary : Bool} (h : s.Moves ordinary t) : t.base = s.base := by
  cases h with
  | opened => exact (base_eq_of_suffix (List.suffix_cons _ (s.top :: s.below))).symm
  | left hleft hraised hbelow => exact (base_raise hraised hbelow).trans (base_eq_of_suffix hleft)

end Stack

/-- No operation removes the outermost frame or moves it. -/
theorem Control.base_perform {privileged : String → Bool} {k : Control} (op : Operation) :
    (k.perform privileged op).stack.base = k.stack.base := Stack.base_moves (k.moves_perform privileged op)

/-! ### The copy -/

namespace Context

variable {c d : Context}

theorem Update.mirrored (h : Update c d) (hc : c.globals.pc = c.stack.head) : d.globals.pc = d.stack.head := by
  cases h with
  | move stack => rfl
  | globals globals hpc _ => exact hpc.trans hc
  | loop | registration | lookup | capability | bits | note => exact hc
  | block existing =>
    unfold guardUpgrade
    split <;> exact hc

theorem Updates.mirrored (h : Updates c d) (hc : c.globals.pc = c.stack.head) : d.globals.pc = d.stack.head := by
  induction h with
  | refl => exact hc
  | tail _ hlast ih => exact hlast.mirrored ih

theorem mirrored_perform (h : c.globals.pc = c.stack.head) (op : Operation) :
    (c.perform op).globals.pc = (c.perform op).stack.head := by
  rcases perform_cases c op with rfl | rfl | hupdates
  · exact h
  · exact h
  · exact hupdates.mirrored h

/-! ### Answers -/

/-- The label with which a hook answers that opens or leaves a region or joins into one, if it answers with a
label. -/
def hookLabel? (c : Context) : Step → Option Label
  | .enterScript url => some (c.enterScript url).1
  | .exitScript => some c.exitScript.1
  | .branch condition exit guardRegister => some (c.branch condition exit guardRegister).1
  | .call callee returnsTo functionHandler => some (c.call callee returnsTo functionHandler).1
  | .exceptionRegion exit => some (c.exceptionRegion exit).1
  | .join label => some (c.join label).1
  | _ => none

/-- The labels with which an operation on the stack answers. A hook can be called itself or as the step of a trace. -/
def labels (c : Context) : Operation → List Label
  | .hook step => (c.hookLabel? step).toList ++ (c.apply step).1.toOption.toList
  | .push region => [(c.push region).1]
  | .pop => [c.pop.1]
  | .joinHandlers label functionHandler exceptionEdge => [(c.joinHandlers label functionHandler exceptionEdge).1]
  | .joinBranch label branchEdge => [(c.joinBranch label branchEdge).1]
  | _ => []

theorem hookLabel?_eq {step : Step} {label : Label} (h : label ∈ c.hookLabel? step) :
    label = (c.apply step).2.pc := by
  cases step with
  | exitScript =>
    obtain rfl := Option.some.inj h
    show c.exitScript.1 = c.exitScript.2.pc
    unfold exitScript
    split <;> rfl
  | enterScript | branch | call | exceptionRegion | join => exact (Option.some.inj h).symm
  | loopHeader | reach | throwException | returnValue | write => cases h

theorem answer_eq_pc {step : Step} {label : Label} (h : label ∈ (c.apply step).1.toOption) :
    label = (c.apply step).2.pc := by
  rw [answer_apply] at h
  cases step with
  | write existing value =>
    have hpc := (quiet_write c existing value).pc
    simp only at h
    split at h
    · exact (Option.some.inj h).symm.trans hpc.symm
    · cases h
  | _ => exact (Option.some.inj h).symm

theorem labels_eq {op : Operation} {label : Label} (h : label ∈ c.labels op) : label = (c.perform op).stack.head := by
  cases op with
  | hook step =>
    rcases List.mem_append.mp h with hhook | hanswer
    · exact hookLabel?_eq (Option.mem_toList.mp hhook)
    · exact answer_eq_pc (Option.mem_toList.mp hanswer)
  | push | pop | joinHandlers | joinBranch => exact List.mem_singleton.mp h
  | _ => cases h

/-- The copy of the program counter is the head's label, and so is every label with which the next operation can
answer afterwards. The outermost frame is there and ends where no instruction is. -/
structure Mirrored (c : Context) : Prop where
  pc : c.globals.pc = c.stack.head
  answers : ∀ op, ∀ label ∈ c.labels op, label = (c.perform op).globals.pc
  nonempty : c.stack.frames ≠ []
  base : c.stack.base = some (.sentinel, none)

/-- In every state of every run of every configuration the copy of the program counter is what it is a copy of. -/
theorem mirrored_run (config : Config) (ops : List Operation) : Mirrored ((ofConfig config).run ops) := by
  have hpc : ((ofConfig config).run ops).globals.pc = ((ofConfig config).run ops).stack.head :=
    run_of_kept (P := fun c => c.globals.pc = c.stack.head) rfl fun _ hd op => mirrored_perform hd op
  have hbase : ((ofConfig config).run ops).stack.base = some (.sentinel, none) := by
    refine run_of_kept (P := fun c => c.stack.base = some (.sentinel, none)) rfl fun d hd op => ?_
    have hperform := congrArg (fun k : Control => k.stack.base) (control_perform d op)
    exact hperform.trans ((Control.base_perform op).trans hd)
  refine ⟨hpc, fun op label hlabel => ?_, Stack.frames_ne_nil, hbase⟩
  rw [mirrored_perform hpc op]
  exact labels_eq hlabel

end Context
end InfoFlow

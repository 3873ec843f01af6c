import InfoFlow.Proofs.Refusals

/-! # Atomic operations and requests to stop

A policy operation either does all that it is to do or nothing: where it is refused, labels, control and
registries are as before. The host is asked to stop when a write is blocked, and the request lasts until it
is acknowledged. So over a run a stop is requested exactly while a blocked write is not acknowledged. -/

namespace InfoFlow

def Operation.acknowledges : Operation → Bool
  | .setGlobals .clearAbort => true
  | _ => false

namespace Context

variable {c : Context}

/-! ### Blocked writes -/

def added (c : Context) (op : Operation) : List Event := (c.perform op).log.events.drop c.log.events.length

/-- The events recorded since the last acknowledgement, at the end of a run that starts with the events
`past`. -/
def unacknowledged (c : Context) (past : List Event) : List Operation → List Event
  | [] => past
  | op :: ops => (c.perform op).unacknowledged (if op.acknowledges then [] else past ++ c.added op) ops

/-- An operation requests a stop where it records a blocked write, and only an acknowledgement takes a
request back. -/
theorem abort_perform (drained : c.Drained) {op : Operation} (h : op.acknowledges = false) :
    (c.perform op).globals.abort = true ↔ c.globals.abort = true ∨ ∃ e ∈ c.added op, e.outcome = .blocked := by
  rcases perform_cases c op with rfl | rfl | hupdates
  · have hadded : c.added .drain = [] := List.drop_nil
    rw [hadded]
    simp [perform, drain, collect]
  · cases h
  · obtain ⟨new, hlog, habort⟩ := (hupdates.recorded drained).log
    have hadded : c.added op = new := by
      simp [added, hlog, EventLog.append]
    rw [hadded, habort]

theorem abort_run {past : List Event} {ops : List Operation} (drained : c.Drained)
    (start : c.globals.abort = true ↔ ∃ e ∈ past, e.outcome = .blocked) :
    (c.run ops).globals.abort = true ↔ ∃ e ∈ c.unacknowledged past ops, e.outcome = .blocked := by
  -- The invariant `start` says that the request agrees with the events not yet acknowledged.
  induction ops generalizing c past with
  | nil => exact start
  | cons op ops ih =>
    refine ih (drained.perform op) ?_
    cases hop : op.acknowledges with
    | false =>
      rw [abort_perform drained hop, start]
      simp only [Bool.false_eq_true, if_false, List.mem_append, or_and_right, exists_or]
    | true =>
      have hclear : op = .setGlobals .clearAbort := by
        unfold Operation.acknowledges at hop
        split at hop
        · rfl
        · cases hop
      subst hclear
      simp [perform, Globals.change, Globals.clearAbort]

theorem not_blocked_ofConfig (config : Config) : ∀ e ∈ (ofConfig config).log.events, e.outcome ≠ .blocked := by
  obtain ⟨r, t, registered, recorded, hr, ht, heq⟩ := ofConfig_eq config
  intro e he
  rw [heq] at he
  rcases List.mem_append.mp (show e ∈ registered ++ recorded from he) with he | he
  · exact (hr.own e he).outcome
  · exact (ht.own e he).outcome

/-! ### Atomicity -/

/-- Whatever policy operation is refused, its target and the context are as before, but for the log and the
request to stop. -/
structure Atomic (c : Context) : Prop where
  assign : ∀ {α : Type} (target : Labeled α) hint e, (c.assign target hint).1 = .error e →
    (c.assign target hint).2.1 = target ∧ Refused c e (c.assign target hint).2.2
  upgrade : ∀ {α : Type} (target : Labeled α) e, (c.upgrade target).1 = .error e →
    (c.upgrade target).2.1 = target ∧ Refused c e (c.upgrade target).2.2
  assignNode : ∀ store node hint e, (c.assignNode store node hint).1 = .error e →
    (c.assignNode store node hint).2.1 = store ∧ Refused c e (c.assignNode store node hint).2.2
  upgradeNode : ∀ store node e, (c.upgradeNode store node).1 = .error e →
    (c.upgradeNode store node).2.1 = store ∧ Refused c e (c.upgradeNode store node).2.2
  guardUpgrade : ∀ existing e, (c.guardUpgrade existing).1 = .error e → Refused c e (c.guardUpgrade existing).2
  checkedWrite : ∀ existing value e, (c.checkedWrite existing value).1 = .error e →
    Refused c e (c.checkedWrite existing value).2
  setEventContext : ∀ urls e, (c.setEventContext urls).1 = .error e → Refused c e (c.setEventContext urls).2

theorem storeNode_of_error {store : NodeStore} {node : Node}
    {answer : Except PolicyError Label × Labeled Node × Context} {e : PolicyError}
    (h : (storeNode store node answer).1 = .error e) :
    answer.1 = .error e ∧ storeNode store node answer = (.error e, store, answer.2.2) := by
  obtain ⟨result, target, d⟩ := answer
  cases result with
  | error reason =>
    obtain rfl := Except.error.inj h
    exact ⟨rfl, rfl⟩
  | ok label => cases h

theorem atomic_of_known (drained : c.Drained) (known : ScriptsKnown c) : Atomic c where
  assign := fun _ _ _ h => refused_assign drained h
  upgrade := fun _ _ h => refused_upgrade drained known h
  assignNode := fun store node hint e h => by
    obtain ⟨hanswer, hstored⟩ := storeNode_of_error h
    unfold Context.assignNode
    rw [hstored]
    exact ⟨rfl, (refused_assign drained hanswer).2⟩
  upgradeNode := fun store node e h => by
    obtain ⟨hanswer, hstored⟩ := storeNode_of_error h
    unfold Context.upgradeNode
    rw [hstored]
    exact ⟨rfl, (refused_upgrade drained known hanswer).2⟩
  guardUpgrade := fun _ _ h => refused_guardUpgrade drained h
  checkedWrite := fun _ _ _ h => refused_checkedWrite drained h
  setEventContext := fun _ _ h => refused_setEventContext drained h

/-- At the end of every run the policy operations are atomic, and a stop is requested exactly if a blocked
write was recorded since the last acknowledgement. -/
theorem refusals_atomic (config : Config) (ops : List Operation) :
    Atomic ((ofConfig config).run ops) ∧
      (((ofConfig config).run ops).globals.abort = true ↔
        ∃ e ∈ (ofConfig config).unacknowledged (ofConfig config).log.events ops, e.outcome = .blocked) := by
  have hstart : (ofConfig config).globals.abort = true ↔
      ∃ e ∈ (ofConfig config).log.events, e.outcome = .blocked :=
    ⟨nofun, fun ⟨e, he, hblocked⟩ => absurd hblocked (not_blocked_ofConfig config e he)⟩
  exact ⟨atomic_of_known (drained_run config ops) (scriptsKnown_run config ops),
    abort_run (drained_ofConfig config) hstart⟩

/-- In a branch on a secret a script must not raise a public value, and the host is asked to stop. -/
theorem refusals_atomic_branch :
    let ops := [.hook (.enterScript "a"), .hook (.branch .secret 9 none)]
    let c := (ofConfig {}).run ops
    (c.upgrade (.ofPublic ())).1 = .error (.sensitiveUpgrade .secret .bottom) ∧
      (c.upgrade (.ofPublic ())).2.1 = .ofPublic () ∧
      Refused c (.sensitiveUpgrade .secret .bottom) (c.upgrade (.ofPublic ())).2.2 := by
  have hblocked : (((ofConfig {}).run [.hook (.enterScript "a"), .hook (.branch .secret 9 none)]).upgrade
      (.ofPublic ())).1 = .error (.sensitiveUpgrade .secret .bottom) := rfl
  exact ⟨hblocked, (refusals_atomic {} _).1.upgrade (.ofPublic ()) _ hblocked⟩

end Context
end InfoFlow

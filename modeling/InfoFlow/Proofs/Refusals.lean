import InfoFlow.Proofs.Recording

/-! # Refused operations

A refused policy operation leaves everything as it was, but for the log, which ends with the reason, and
the request to stop, which a forbidden write makes. To raise a label the running script's origin is looked
up before the write is checked; that adds no entry, because the start of the script has made the origin
known and known origins stay known. -/

namespace InfoFlow

theorem Control.mem_scripts_perform {privileged : String → Bool} {k : Control} {op : Operation} {url : String}
    (h : url ∈ (k.perform privileged op).scripts) : url ∈ k.scripts ∨ op = .hook (.enterScript url) := by
  obtain ⟨stack, scripts⟩ := k
  cases op with
  | hook step =>
    cases step with
    | enterScript started =>
      rcases List.mem_cons.mp h with rfl | h
      · exact Or.inr rfl
      · exact Or.inl h
    | exitScript =>
      cases scripts with
      | nil => exact Or.inl h
      | cons ended rest => exact Or.inl (List.mem_cons_of_mem ended h)
    | loopHeader condition exit =>
      simp only [Control.perform, step, loopHeader] at h
      split at h <;> exact Or.inl h
    | _ => exact Or.inl h
  | _ => exact Or.inl h

namespace Context

variable {α : Type} {c d : Context}

/-! ### Running scripts are known -/

def ScriptsKnown (c : Context) : Prop := ∀ url ∈ c.scripts, c.registry.Knows url

theorem knows_enterScript (c : Context) (url : String) : (c.enterScript url).2.registry.Knows url := by
  unfold enterScript
  split
  · rename_i hurl
    exact (Origin.Registry.knows_of_isPolicyOrigin hurl).serve .drain
  · exact ((Origin.Registry.knows_getLabel c.registry url).serve .drain).serve .drain

theorem ScriptsKnown.perform (h : ScriptsKnown c) (drained : c.Drained) (op : Operation) :
    ScriptsKnown (c.perform op) := by
  intro url hurl
  rw [show (c.perform op).scripts = (c.control.perform c.registry.isPolicyOrigin op).scripts from
    congrArg Control.scripts (control_perform c op)] at hurl
  rcases Control.mem_scripts_perform hurl with hrunning | rfl
  · obtain ⟨requests, hregistry⟩ := drained.served op
    rw [hregistry]
    exact (h url hrunning).serveAll requests
  · exact knows_enterScript c url

theorem scriptsKnown_run (config : Config) (ops : List Operation) : ScriptsKnown ((ofConfig config).run ops) := by
  have hstart : ScriptsKnown (ofConfig config) := fun url hurl => absurd hurl List.not_mem_nil
  have h : ((ofConfig config).run ops).Drained ∧ ScriptsKnown ((ofConfig config).run ops) :=
    run_of_kept (P := fun c => c.Drained ∧ ScriptsKnown c) ⟨drained_ofConfig config, hstart⟩
      fun _ hd op => ⟨hd.1.perform op, hd.2.perform hd.1 op⟩
  exact h.2

/-! ### What a refusal leaves -/

/-- The context `d` after a refusal with the error `e`. -/
structure Refused (c : Context) (e : PolicyError) (d : Context) : Prop where
  stack : d.stack = c.stack
  scripts : d.scripts = c.scripts
  registry : d.registry = c.registry
  table : d.table = c.table
  globals : d.globals = if e.isAbort then c.globals.requestAbort else c.globals
  log : ∃ attempt last, d.log = c.log.append (attempt ++ [last]) ∧ last.errorCode = some e.code

/-- Events may be recorded before the refusal. -/
theorem Refused.of_append {e : PolicyError} {new : List Event}
    (h : Refused { c with log := c.log.append new } e d) : Refused c e d := by
  obtain ⟨attempt, last, hlog, hcode⟩ := h.log
  refine ⟨h.stack, h.scripts, h.registry, h.table, h.globals, new ++ attempt, last, ?_, hcode⟩
  rw [hlog, EventLog.append_append, List.append_assoc]

theorem Refused.of_record (drained : c.Drained) {e : PolicyError} {event : Event} (globals : Globals)
    (hglobals : globals = if e.isAbort then c.globals.requestAbort else c.globals)
    (hcode : event.errorCode = some e.code) : Refused c e (record { c with globals } event) := by
  have hdrained : Drained { c with globals } := ⟨drained.registry, drained.table⟩
  rw [hdrained.record]
  exact ⟨rfl, rfl, rfl, rfl, hglobals, [], event, rfl, hcode⟩

/-- An operation that hands on the refusal of its part. -/
theorem Refused.of_part {β γ : Type} {part : Except PolicyError β × Context} {reason e : PolicyError}
    (refused : ∀ e, part.1 = .error e → Refused c e part.2) (hpart : part = (.error reason, d))
    (h : (.error reason : Except PolicyError γ) = .error e) : Refused c e d := by
  obtain rfl := Except.error.inj h
  have hrefused := refused reason (congrArg Prod.fst hpart)
  rwa [hpart] at hrefused

theorem refused_requirePolicy (drained : c.Drained) {activity : Activity} {e : PolicyError}
    (h : (c.requirePolicy activity).1 = .error e) : Refused c e (c.requirePolicy activity).2 := by
  unfold requirePolicy at h ⊢
  split at h
  · cases h
  · rename_i hpc
    obtain rfl := Except.error.inj h
    rw [if_neg hpc]
    exact .of_record drained c.globals rfl rfl

theorem requirePolicy_of_ok {activity : Activity} (h : (c.requirePolicy activity).1 = .ok ()) :
    (c.requirePolicy activity).2 = c := by
  unfold requirePolicy at h ⊢
  split at h
  · rename_i hpc
    rw [if_pos hpc]
  · cases h

theorem refused_resolve (drained : c.Drained) {hint : Origin.Hint} {activity : Activity} {e : PolicyError}
    (h : (c.resolve hint activity).1 = .error e) : Refused c e (c.resolve hint activity).2 := by
  cases hint with
  | origin url => cases h
  | currentScript =>
    cases hscript : c.currentScript? with
    | some script => simp [resolve, hscript] at h
    | none =>
      simp only [resolve, hscript] at h ⊢
      obtain rfl := Except.error.inj h
      exact .of_record drained c.globals rfl rfl

theorem refused_guardUpgrade (drained : c.Drained) {existing : Label} {e : PolicyError}
    (h : (c.guardUpgrade existing).1 = .error e) : Refused c e (c.guardUpgrade existing).2 := by
  unfold guardUpgrade at h ⊢
  split at h
  · cases h
  · rename_i hforbidden
    obtain rfl := Except.error.inj h
    rw [if_neg hforbidden]
    exact .of_record drained c.globals.requestAbort rfl rfl

theorem originLabel_of_knows (drained : c.Drained) {url : String} (known : c.registry.Knows url) :
    ∃ new, (c.originLabel url).2 = { c with log := c.log.append new } := by
  obtain ⟨new, hnew⟩ := Origin.Registry.getLabel_of_knows known
  have hlog : (c.registry.getLabel url).2.log = c.registry.log.append new := congrArg Origin.Registry.log hnew
  refine ⟨new, (drained.collect_registry hlog).trans ?_⟩
  rw [hnew]

theorem resolve_currentScript (drained : c.Drained) (known : ScriptsKnown c) {activity : Activity} {label : Label}
    (h : (c.resolve .currentScript activity).1 = .ok label) :
    ∃ new, (c.resolve .currentScript activity).2 = { c with log := c.log.append new } := by
  cases hscript : c.currentScript? with
  | none => simp [resolve, hscript] at h
  | some script =>
    simp only [resolve, hscript]
    exact originLabel_of_knows drained (known script (List.mem_of_mem_head? hscript))

/-! ### Policy operations -/

theorem refused_checkedWrite (drained : c.Drained) {existing value : Label} {e : PolicyError}
    (h : (c.checkedWrite existing value).1 = .error e) : Refused c e (c.checkedWrite existing value).2 := by
  unfold checkedWrite at h ⊢
  rcases hguard : c.guardUpgrade existing with ⟨reason | _, d⟩
  · rw [hguard] at h
    exact .of_part (fun _ => refused_guardUpgrade drained) hguard h
  · rw [hguard] at h
    cases h

theorem refused_assign (drained : c.Drained) {target : Labeled α} {hint : Origin.Hint} {e : PolicyError}
    (h : (c.assign target hint).1 = .error e) :
    (c.assign target hint).2.1 = target ∧ Refused c e (c.assign target hint).2.2 := by
  unfold assign at h ⊢
  rcases hrequire : c.requirePolicy .labelAssigned with ⟨reason | _, d⟩
  · rw [hrequire] at h
    exact ⟨rfl, .of_part (fun _ => refused_requirePolicy drained) hrequire h⟩
  · obtain rfl : d = c := (congrArg Prod.snd hrequire).symm.trans (requirePolicy_of_ok (congrArg Prod.fst hrequire))
    rw [hrequire] at h
    rcases hresolve : d.resolve hint .labelAssigned with ⟨reason | _, f⟩
    · simp only [hresolve] at h ⊢
      exact ⟨trivial, .of_part (fun _ => refused_resolve drained) hresolve h⟩
    · simp only [hresolve] at h
      cases h

theorem refused_upgrade (drained : c.Drained) (known : ScriptsKnown c) {target : Labeled α} {e : PolicyError}
    (h : (c.upgrade target).1 = .error e) :
    (c.upgrade target).2.1 = target ∧ Refused c e (c.upgrade target).2.2 := by
  unfold upgrade at h ⊢
  rcases hresolve : c.resolve .currentScript .labelUpgraded with ⟨reason | _, d⟩
  · rw [hresolve] at h
    exact ⟨rfl, .of_part (fun _ => refused_resolve drained) hresolve h⟩
  · -- The look-up may have recorded events, but it has registered nothing.
    obtain ⟨new, hnew⟩ := resolve_currentScript drained known (congrArg Prod.fst hresolve)
    obtain rfl : d = { c with log := c.log.append new } := (congrArg Prod.snd hresolve).symm.trans hnew
    have hdrained : Drained { c with log := c.log.append new } := ⟨drained.registry, drained.table⟩
    rw [hresolve] at h
    rcases hguard : guardUpgrade { c with log := c.log.append new } target.label with ⟨reason | _, f⟩
    · simp only [hguard] at h ⊢
      exact ⟨trivial, (Refused.of_part (fun _ => refused_guardUpgrade hdrained) hguard h).of_append⟩
    · simp only [hguard] at h
      cases h

theorem refused_setEventContext (drained : c.Drained) {urls : List String} {e : PolicyError}
    (h : (c.setEventContext urls).1 = .error e) : Refused c e (c.setEventContext urls).2 := by
  unfold setEventContext at h ⊢
  rcases hrequire : c.requirePolicy .eventContextUpdated with ⟨reason | _, d⟩
  · rw [hrequire] at h
    exact .of_part (fun _ => refused_requirePolicy drained) hrequire h
  · rw [hrequire] at h
    cases h

end Context
end InfoFlow

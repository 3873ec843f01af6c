import InfoFlow.Proofs.Nesting
import InfoFlow.Proofs.PolicyAnswers

/-! # Who acts as policy code

The policy source gets on the program counter only where a script of a policy origin starts. Regions and
handlers inherit it inside that script, ordinary scripts started from there do not, and the end of a
script brings back what was before. So whoever passes for policy code is a script of a policy origin. -/

namespace InfoFlow

open Label (policySource)

/-- A label with the policy source belongs to a trusted script. -/
def PolicyOnly (trusted : String → Bool) (owner : Option String) (label : Label) : Prop :=
  label.Has policySource → ∃ url, owner = some url ∧ trusted url = true

theorem ownership_policyOnly (trusted : String → Bool) : Ownership trusted (PolicyOnly trusted) where
  join := fun ha hb h => (Label.has_join.mp h).elim ha hb
  bottom := fun _ h => absurd h Label.not_has_bottom
  stripped := fun _ _ h => absurd (Label.has_policy.mpr rfl) (Label.has_without.mp h).2
  privileged := fun url _ hurl _ => ⟨url, rfl, hurl⟩

namespace Control

/-- An operation that is no hook and does not edit the stack has nothing to do with control. -/
theorem perform_of_beside {privileged : String → Bool} {k : Control} {op : Operation}
    (hhook : ∀ step, op ≠ .hook step) (hop : op.editsStack = false) : k.perform privileged op = k := by
  cases op with
  | hook step => exact absurd rfl (hhook step)
  | push | pop | joinHandlers | joinBranch | setLoop => cases hop
  | _ => rfl

end Control

namespace Context

variable {c : Context}

/-- The innermost running script is one of a policy origin. -/
def PolicyScriptRuns (c : Context) : Prop :=
  ∃ url, c.currentScript? = some url ∧ c.registry.isPolicyOrigin url = true

/-- From the outermost frame on, only frames of policy origins' scripts carry the policy source. -/
def Guarded (c : Context) : Prop :=
  c.control.NestedIn (PolicyOnly c.registry.isPolicyOrigin) .sentinel [] []

theorem guarded_ofConfig (config : Config) : Guarded (ofConfig config) :=
  Nested.root rfl fun h => absurd h Label.not_has_bottom

theorem Guarded.apply (h : Guarded c) {step : Step} (hlabels : ∀ label ∈ step.labels, ¬ label.Has policySource)
    (hlocation : step.location? ≠ some .scriptExit) : Guarded (c.apply step).2 := by
  unfold Guarded
  rw [isPolicyOrigin_apply, control_apply]
  refine Control.NestedIn.step (ownership_policyOnly _) h (fun _ => rfl) (fun label hlabel owner hhas => ?_)
    hlocation (Or.inr (Nat.zero_le _))
  exact absurd hhas (hlabels label hlabel)

theorem Guarded.perform (h : Guarded c) {op : Operation} (hop : op.editsStack = false)
    (hlabels : ∀ step, op = .hook step → ∀ label ∈ step.labels, ¬ label.Has policySource)
    (hlocation : ∀ step, op = .hook step → step.location? ≠ some .scriptExit) : Guarded (c.perform op) := by
  by_cases hhook : ∃ step, op = .hook step
  · obtain ⟨step, rfl⟩ := hhook
    exact h.apply (hlabels step rfl) (hlocation step rfl)
  · have hcontrol : (c.perform op).control = c.control :=
      (control_perform c op).trans (Control.perform_of_beside (fun step heq => hhook ⟨step, heq⟩) hop)
    unfold Guarded
    rw [hcontrol]
    refine Nested.mono (fun owner label howner hhas => ?_) h
    -- The list of policy origins may have grown, but it still contains the owner.
    obtain ⟨url, hurl, htrusted⟩ := howner hhas
    exact ⟨url, hurl, Origin.Registry.isPolicyOrigin_mono (policyOrigins_perform c op) htrusted⟩

theorem Guarded.policyScriptRuns (h : Guarded c) (hpc : c.pc.Has policySource) : PolicyScriptRuns c :=
  Nested.label h hpc

/-- What policy code may do happens only while a script of a policy origin is the innermost one. -/
structure PolicyConfined (c : Context) : Prop where
  pc : c.pc.Has policySource → PolicyScriptRuns c
  requirePolicy : ∀ activity, (c.requirePolicy activity).1 = .ok () → PolicyScriptRuns c
  assign : ∀ {α : Type} (target : Labeled α) hint label, (c.assign target hint).1 = .ok label → PolicyScriptRuns c
  setEventContext : ∀ urls label, (c.setEventContext urls).1 = .ok label → PolicyScriptRuns c

theorem Guarded.policyConfined (h : Guarded c) : PolicyConfined c := by
  have of_pc (hpc : c.pc = .policy) : PolicyScriptRuns c :=
    h.policyScriptRuns (hpc ▸ Label.has_policy.mpr rfl)
  exact ⟨h.policyScriptRuns, fun _ hok => of_pc (pc_of_requirePolicy hok), fun _ _ _ hok => of_pc (pc_of_assign hok),
    fun _ _ hok => of_pc (pc_of_setEventContext hok)⟩

/-- Runs of hooks, registrations and policy operations in which no step brings in the policy source or
names the end of scripts leave the policy source to the scripts of policy origins. -/
theorem policy_source_confined (config : Config) (ops : List Operation)
    (hooked : ∀ op ∈ ops, op.editsStack = false)
    (labels : ∀ step, .hook step ∈ ops → ∀ label ∈ step.labels, ¬ label.Has policySource)
    (locations : ∀ step, .hook step ∈ ops → step.location? ≠ some .scriptExit) :
    ∀ c ∈ (ofConfig config).states ops, PolicyConfined c := by
  suffices guarded : ∀ c ∈ (ofConfig config).states ops, Guarded c from fun c hc => (guarded c hc).policyConfined
  refine states_of_kept (Q := fun _ => True) (guarded_ofConfig config) (fun _ _ => trivial) fun d hd op hop _ => ?_
  refine hd.perform (hooked op hop) (fun step heq => ?_) (fun step heq => ?_)
  · exact labels step (heq ▸ hop)
  · exact locations step (heq ▸ hop)

/-- A policy script starts an ordinary one, which throws and leaves regions open. -/
theorem policy_source_confined_nested :
    ((ofConfig { policyOrigins := ["p"] }).run [.hook (.enterScript "p")]).pc.Has policySource ∧
      ∀ c ∈ (ofConfig { policyOrigins := ["p"] }).states
        [.hook (.enterScript "p"), .hook (.exceptionRegion 20), .hook (.enterScript "a"), .registerOrigin "b" true,
         .hook (.branch .secret 9 none), .hook (.throwException .secret), .setEventContext ["a"], .hook .exitScript,
         .assign (.ofPublic ()) (.origin "a"), .hook (.throwException .bottom)], PolicyConfined c :=
  ⟨by decide, policy_source_confined _ _ (by simp [Operation.editsStack]) (by simp [Step.labels]; decide)
    (by simp [Step.location?]; decide)⟩

end Context
end InfoFlow

import InfoFlow.Proofs.Operation
import InfoFlow.Proofs.PolicyOrigins

/-! # What happens beside the control flow

Looking up origins, recording events and the policy operations work on the registries, the log and the
globals. They leave the regions, the running scripts, the mode and the policy origins as they are. -/

namespace InfoFlow.Context

/-- The two contexts have the same regions, running scripts, mode and policy origins. -/
structure Quiet (c d : Context) : Prop where
  stack : d.stack = c.stack
  scripts : d.scripts = c.scripts
  mode : d.globals.mode = c.globals.mode
  policyOrigins : d.registry.policyOrigins = c.registry.policyOrigins

namespace Quiet

variable {c d e : Context}

theorem refl (c : Context) : Quiet c c := ⟨rfl, rfl, rfl, rfl⟩

theorem trans (h₁ : Quiet c d) (h₂ : Quiet d e) : Quiet c e where
  stack := h₂.stack.trans h₁.stack
  scripts := h₂.scripts.trans h₁.scripts
  mode := h₂.mode.trans h₁.mode
  policyOrigins := h₂.policyOrigins.trans h₁.policyOrigins

theorem pc (h : Quiet c d) : d.pc = c.pc := by
  unfold Context.pc
  rw [h.stack]

theorem isPolicyOrigin (h : Quiet c d) : d.registry.isPolicyOrigin = c.registry.isPolicyOrigin :=
  Origin.Registry.isPolicyOrigin_congr h.policyOrigins

end Quiet

variable {α : Type} (c : Context)

theorem quiet_record (event : Event) : Quiet c (c.record event) := ⟨rfl, rfl, rfl, rfl⟩

theorem quiet_drain : Quiet c c.drain.2 := ⟨rfl, rfl, rfl, rfl⟩

theorem quiet_originLabel (url : String) : Quiet c (c.originLabel url).2 :=
  ⟨rfl, rfl, rfl, Origin.Registry.policyOrigins_getLabel⟩

theorem quiet_recordCapability (entry : Capability) : Quiet c (c.recordCapability entry).2 := ⟨rfl, rfl, rfl, rfl⟩

theorem quiet_setGlobals (change : Globals.Change) :
    Quiet c { c with globals := c.globals.change change } := by
  refine ⟨rfl, rfl, ?_, rfl⟩
  cases change with
  | argumentLabel index label =>
    simp only [Globals.change, Globals.setArgumentLabel]
    split <;> rfl
  | _ => rfl

/-! ### Policy operations -/

theorem quiet_requirePolicy (activity : Activity) : Quiet c (c.requirePolicy activity).2 := by
  unfold requirePolicy
  split
  · exact Quiet.refl c
  · exact quiet_record c _

theorem quiet_resolve (hint : Origin.Hint) (activity : Activity) : Quiet c (c.resolve hint activity).2 := by
  unfold resolve
  split
  · exact quiet_originLabel c _
  · split
    · exact quiet_originLabel c _
    · exact quiet_record c _

theorem quiet_guardUpgrade (existing : Label) : Quiet c (c.guardUpgrade existing).2 := by
  unfold guardUpgrade
  split
  · exact Quiet.refl c
  · exact ⟨rfl, rfl, rfl, rfl⟩

theorem quiet_checkedWrite (existing value : Label) : Quiet c (c.checkedWrite existing value).2 := by
  have h := quiet_guardUpgrade c existing
  unfold checkedWrite
  split <;> simp_all

theorem quiet_assign (target : Labeled α) (hint : Origin.Hint) : Quiet c (c.assign target hint).2.2 := by
  have hrequire := quiet_requirePolicy c .labelAssigned
  unfold assign
  split
  · simp_all
  · rename_i d hd
    have hresolve := quiet_resolve d hint .labelAssigned
    rw [hd] at hrequire
    split
    · rename_i heq
      rw [heq] at hresolve
      exact hrequire.trans hresolve
    · rename_i heq
      rw [heq] at hresolve
      exact (hrequire.trans hresolve).trans (quiet_record _ _)

theorem quiet_upgrade (target : Labeled α) : Quiet c (c.upgrade target).2.2 := by
  have hresolve := quiet_resolve c .currentScript .labelUpgraded
  unfold upgrade
  split
  · simp_all
  · rename_i d hd
    have hguard := quiet_guardUpgrade d target.label
    rw [hd] at hresolve
    split
    · rename_i heq
      rw [heq] at hguard
      exact hresolve.trans hguard
    · rename_i heq
      rw [heq] at hguard
      exact (hresolve.trans hguard).trans (quiet_record _ _)

theorem quiet_accumulate (label : Label) (urls : List String) : Quiet c (c.accumulate label urls).2 := by
  induction urls generalizing c label with
  | nil => exact Quiet.refl c
  | cons url rest ih =>
    have hfound := quiet_originLabel c url
    simp only [accumulate]
    split
    · exact hfound
    · exact hfound.trans (ih _ _)

theorem quiet_setEventContext (urls : List String) : Quiet c (c.setEventContext urls).2 := by
  have hrequire := quiet_requirePolicy c .eventContextUpdated
  unfold setEventContext
  split
  · simp_all
  · rename_i d hd
    rw [hd] at hrequire
    refine (hrequire.trans (quiet_accumulate d d.globals.eventContextLabel urls)).trans ?_
    exact ⟨rfl, rfl, rfl, rfl⟩

theorem quiet_perform {op : Operation} (h : op.isQuiet = true) : Quiet c (c.perform op) := by
  cases op with
  | hook | registerOrigin | scriptSource | setEnforcement | push | pop | joinHandlers | joinBranch | setLoop => cases h
  | originLabel url => exact quiet_originLabel c url
  | recordCapability entry => exact quiet_recordCapability c entry
  | setBits name bits => exact ⟨rfl, rfl, rfl, rfl⟩
  | setBitsAt index bits => exact ⟨rfl, rfl, rfl, rfl⟩
  | guardUpgrade existing => exact quiet_guardUpgrade c existing
  | assign target hint => exact quiet_assign c target hint
  | upgrade target => exact quiet_upgrade c target
  | setEventContext urls => exact quiet_setEventContext c urls
  | trust value => exact quiet_setEventContext c _
  | setGlobals change => exact quiet_setGlobals c change
  | drain => exact quiet_drain c

end InfoFlow.Context

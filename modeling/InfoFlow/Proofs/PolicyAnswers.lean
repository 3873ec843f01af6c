import InfoFlow.Proofs.Quiet

/-! # Answers of the policy operations

A write or an upgrade that succeeds was permitted under the program-counter label at its start. Outside
the policy context the operations of policy code are refused, and they leave the globals as they are. -/

namespace InfoFlow.Context

variable {α : Type} {c : Context}

theorem permits_of_guardUpgrade {existing : Label} (h : (c.guardUpgrade existing).1 = .ok ()) :
    c.globals.mode.permits c.pc existing = true := by
  unfold guardUpgrade at h
  split at h
  · assumption
  · cases h

theorem permits_of_checkedWrite {existing value label : Label} (h : (c.checkedWrite existing value).1 = .ok label) :
    c.globals.mode.permits c.pc existing = true ∧ label = value.join c.pc := by
  have hquiet := quiet_guardUpgrade c existing
  unfold checkedWrite at h
  split at h
  · cases h
  · rename_i e he
    rw [he] at hquiet
    refine ⟨permits_of_guardUpgrade (congrArg Prod.fst he), ?_⟩
    rw [← hquiet.pc]
    exact (Except.ok.inj h).symm

theorem permits_of_upgrade {target : Labeled α} {label : Label} (h : (c.upgrade target).1 = .ok label) :
    c.globals.mode.permits c.pc target.label = true := by
  have hquiet := quiet_resolve c .currentScript .labelUpgraded
  unfold upgrade at h
  split at h
  · cases h
  · rename_i d hd
    rw [hd] at hquiet
    split at h
    · cases h
    · rename_i he
      have := permits_of_guardUpgrade (congrArg Prod.fst he)
      rwa [hquiet.mode, hquiet.pc] at this

/-- The answer is the label that the value has afterwards. -/
theorem label_of_upgrade {target : Labeled α} {label : Label} (h : (c.upgrade target).1 = .ok label) :
    (c.upgrade target).2.1.label = label := by
  unfold upgrade at h ⊢
  split at h
  · cases h
  · split at h
    · cases h
    · exact Except.ok.inj h

theorem label_of_assign {target : Labeled α} {hint : Origin.Hint} {label : Label}
    (h : (c.assign target hint).1 = .ok label) : (c.assign target hint).2.1.label = label := by
  unfold assign at h ⊢
  split at h
  · cases h
  · split at h
    · cases h
    · exact Except.ok.inj h

theorem permits_of_upgradeNode {store : NodeStore} {node : Node} {label : Label}
    (h : (c.upgradeNode store node).1 = .ok label) :
    c.globals.mode.permits c.pc (store.labelOf node) = true := by
  unfold upgradeNode storeNode at h
  split at h
  · cases h
  · rename_i heq
    exact permits_of_upgrade (congrArg Prod.fst heq)

theorem requirePolicy_of_ne (h : c.pc ≠ .policy) (activity : Activity) :
    (c.requirePolicy activity).1 = .error (.notPolicyContext c.pc) ∧
      (c.requirePolicy activity).2.globals = c.globals := by
  unfold requirePolicy
  rw [if_neg h]
  exact ⟨rfl, rfl⟩

theorem assign_of_ne (h : c.pc ≠ .policy) (target : Labeled α) (hint : Origin.Hint) :
    (c.assign target hint).1 = .error (.notPolicyContext c.pc) ∧
      (c.assign target hint).2.2.globals = c.globals := by
  unfold assign requirePolicy
  rw [if_neg h]
  exact ⟨rfl, rfl⟩

theorem assignNode_of_ne (h : c.pc ≠ .policy) (store : NodeStore) (node : Node) (hint : Origin.Hint) :
    (c.assignNode store node hint).1 = .error (.notPolicyContext c.pc) ∧
      (c.assignNode store node hint).2.1 = store := by
  unfold assignNode assign requirePolicy
  rw [if_neg h]
  exact ⟨rfl, rfl⟩

theorem setEventContext_of_ne (h : c.pc ≠ .policy) (urls : List String) :
    (c.setEventContext urls).1 = .error (.notPolicyContext c.pc) ∧
      (c.setEventContext urls).2.globals = c.globals := by
  unfold setEventContext requirePolicy
  rw [if_neg h]
  exact ⟨rfl, rfl⟩

theorem pc_of_requirePolicy {activity : Activity} (h : (c.requirePolicy activity).1 = .ok ()) : c.pc = .policy := by
  by_cases hpc : c.pc = .policy
  · exact hpc
  · rw [(requirePolicy_of_ne hpc activity).1] at h
    cases h

theorem pc_of_assign {target : Labeled α} {hint : Origin.Hint} {label : Label}
    (h : (c.assign target hint).1 = .ok label) : c.pc = .policy := by
  by_cases hpc : c.pc = .policy
  · exact hpc
  · rw [(assign_of_ne hpc target hint).1] at h
    cases h

theorem pc_of_setEventContext {urls : List String} {label : Label} (h : (c.setEventContext urls).1 = .ok label) :
    c.pc = .policy := by
  by_cases hpc : c.pc = .policy
  · exact hpc
  · rw [(setEventContext_of_ne hpc urls).1] at h
    cases h

end InfoFlow.Context

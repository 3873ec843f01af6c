import InfoFlow.Proofs.PolicyAnswers
import InfoFlow.Proofs.Sources

/-! # Labels of written places

Whether a place may be written is decided by the label that it has before. An upgrade of an object raises
two labels, of which the value's decides. A write joins the program counter into the label of the written
value, so the new label has all its sources; it may still be the policy label, which the place then keeps
from everyone but policy code. -/

namespace InfoFlow.Context

variable {α : Type} {c : Context}

/-! ### Upgrades -/

/-- What a successful upgrade tells of the labels that it raises: a write into the place with the value's
label was permitted, and the program counter flows to an object's own label where the value's label does. -/
structure UpgradesChecked (c : Context) : Prop where
  value : ∀ {α : Type} (target : Labeled α) label, (c.upgrade target).1 = .ok label →
    c.pc.FlowsTo target.label ∧ target.label.isPolicy = false
  node : ∀ store node label, (c.upgradeNode store node).1 = .ok label →
    c.pc.FlowsTo (store.labelOf node) ∧ (store.labelOf node).isPolicy = false
  object : ∀ {α : Type} (target : Labeled α) label own, (c.upgrade target).1 = .ok label →
    target.objectLabel = some own → target.label.FlowsTo own → c.pc.FlowsTo own

/-- Outside policy code, an upgrade that succeeds was permitted by the value's label. -/
theorem upgrades_checked (c : Context) (enforced : c.globals.mode = .enforce) (ordinary : c.pc.isPolicy = false) :
    UpgradesChecked c := by
  have checked {label : Label} (h : c.globals.mode.permits c.pc label = true) :
      c.pc.FlowsTo label ∧ label.isPolicy = false :=
    ((Enforcement.permits_iff ordinary).mp (enforced ▸ h)).symm
  refine ⟨fun target label h => ?_, fun store node label h => ?_, fun target label own h _ hcovers => ?_⟩
  · exact checked (permits_of_upgrade h)
  · exact checked (permits_of_upgradeNode h)
  · exact (checked (permits_of_upgrade h)).1.trans hcovers

/-- In a branch on a secret a script raises a secret object. -/
theorem upgrades_checked_secret_object :
    let c := (ofConfig {}).run [.hook (.enterScript "a"), .hook (.branch .secret 9 none)]
    (c.upgrade (.object () .secret .secret)).1 = .ok ⟨6, false⟩ ∧
      (c.upgrade (.object () .secret .secret)).2.1 = .object () ⟨6, false⟩ ⟨6, false⟩ ∧ c.pc.FlowsTo .secret :=
  ⟨rfl, rfl, (upgrades_checked _ rfl rfl).object (.object () .secret .secret) _ .secret rfl rfl (by decide)⟩

/-- The check does not look at the object's own label: in a branch on a secret a script raises the public
label of an object that it reached through a secret reference. -/
theorem upgrade_raises_public_object :
    let c := (ofConfig {}).run [.hook (.enterScript "a"), .hook (.branch .secret 9 none)]
    c.globals.mode = .enforce ∧ c.pc.isPolicy = false ∧
      (c.upgrade (.object () .secret .bottom)).1 = .ok ⟨6, false⟩ ∧
      (c.upgrade (.object () .secret .bottom)).2.1 = .object () ⟨6, false⟩ ⟨4, false⟩ ∧ ¬ c.pc.FlowsTo .bottom :=
  ⟨rfl, rfl, rfl, rfl, by decide⟩

/-! ### Writes -/

/-- Outside policy code, the label that a write leaves is the policy label exactly if the program counter is
public and the value has the policy label. In all other cases the place may be written again. -/
theorem written_policy_iff (c : Context) (enforced : c.globals.mode = .enforce) (ordinary : c.pc.isPolicy = false)
    (existing value label : Label) (h : (c.checkedWrite existing value).1 = .ok label) :
    (label.isPolicy = true ↔ value.isPolicy = true ∧ c.pc.isPublic = true) ∧
      (c.globals.mode.permits c.pc label = true ↔ ¬ (value.isPolicy = true ∧ c.pc.isPublic = true)) := by
  obtain ⟨-, rfl⟩ := permits_of_checkedWrite h
  have hpolicy := Label.isPolicy_join_iff (a := value) ordinary
  refine ⟨hpolicy, ?_⟩
  rw [enforced, Enforcement.permits_iff ordinary, ← hpolicy, Bool.not_eq_true]
  exact and_iff_left Label.flowsTo_join_right

/-- A value with the policy label, written in a branch on a secret, does not leave the policy label. -/
theorem written_policy_secret :
    let c := (ofConfig {}).run [.hook (.enterScript "a"), .hook (.branch .secret 9 none)]
    (c.checkedWrite .secret .policy).1 = .ok ⟨3, false⟩ ∧ c.globals.mode.permits c.pc ⟨3, false⟩ = true :=
  ⟨rfl, (written_policy_iff _ rfl rfl .secret .policy ⟨3, false⟩ rfl).2.mpr (by decide)⟩

/-- A public script writes a value with the policy label into a public place, which it may not write
again. -/
theorem public_script_writes_policy :
    let c := (ofConfig {}).run [.hook (.enterScript "a")]
    c.globals.mode = .enforce ∧ c.pc.isPolicy = false ∧ (c.checkedWrite .bottom .policy).1 = .ok .policy ∧
      c.globals.mode.permits c.pc .policy = false :=
  ⟨rfl, rfl, rfl, rfl⟩

end InfoFlow.Context

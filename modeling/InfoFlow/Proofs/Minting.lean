import InfoFlow.Proofs.PolicyAnswers
import InfoFlow.Proofs.Slots

/-! # Upgrades and the policy source

An upgrade raises labels by the label of the running script's origin. So it gives the policy source to
a label without it exactly if that origin counts as policy. An ordinary origin does so in two cases: its
host is the key of the slot of policy, or the registry is full and has no slot for it. -/

namespace InfoFlow.Context

open Label (policySource)

variable {α : Type} {c : Context}

/-! ### What an upgrade does -/

theorem resolve_of_running {script : String} (running : c.currentScript? = some script) (activity : Activity) :
    (c.resolve .currentScript activity).1 = .ok (c.registry.getLabel script).1 := by
  simp only [resolve, running]
  rfl

theorem raised_of_upgrade {script : String} (running : c.currentScript? = some script) {target : Labeled α}
    {label : Label} (h : (c.upgrade target).1 = .ok label) :
    (c.upgrade target).2.1 = target.raise (c.registry.getLabel script).1 := by
  have hresolve := resolve_of_running running .labelUpgraded
  unfold upgrade at h ⊢
  split at h
  · cases h
  · rename_i hlabel
    rw [hlabel] at hresolve
    obtain rfl := Except.ok.inj hresolve
    split at h
    · cases h
    · rfl

theorem raised_of_upgradeNode {script : String} (running : c.currentScript? = some script) {store : NodeStore}
    {node : Node} {label : Label} (h : (c.upgradeNode store node).1 = .ok label) :
    (c.upgradeNode store node).2.1.labelOf node = (store.labelOf node).join (c.registry.getLabel script).1 := by
  unfold upgradeNode storeNode at h ⊢
  split at h
  · cases h
  · rename_i heq
    have hraised := raised_of_upgrade running (congrArg Prod.fst heq)
    rw [heq] at hraised
    obtain rfl := hraised
    exact NodeStore.labelOf_tag.trans (if_pos rfl)

/-! ### Who mints the policy source -/

/-- A successful upgrade gives the policy source to labels that lack it exactly if `mints` holds. -/
structure MintsPolicyIff (c : Context) (mints : Prop) : Prop where
  value : ∀ {α : Type} (target : Labeled α) label, (c.upgrade target).1 = .ok label →
    ¬ target.label.Has policySource → ((c.upgrade target).2.1.label.Has policySource ↔ mints)
  object : ∀ {α : Type} (target : Labeled α) label own, (c.upgrade target).1 = .ok label →
    target.objectLabel = some own → ¬ own.Has policySource →
      ∃ raised, (c.upgrade target).2.1.objectLabel = some raised ∧ (raised.Has policySource ↔ mints)
  node : ∀ store node label, (c.upgradeNode store node).1 = .ok label → ¬ (store.labelOf node).Has policySource →
    (((c.upgradeNode store node).2.1.labelOf node).Has policySource ↔ mints)

theorem mintsPolicyIff_of_label {script : String} (running : c.currentScript? = some script) {mints : Prop}
    (h : (c.registry.getLabel script).1.Has policySource ↔ mints) : MintsPolicyIff c mints := by
  have joined {label : Label} (clean : ¬ label.Has policySource) :
      (label.join (c.registry.getLabel script).1).Has policySource ↔ mints := by
    rw [Label.has_join, or_iff_right clean, h]
  refine ⟨fun target label hraised clean => ?_, fun target label own hraised hown clean => ?_,
    fun store node label hraised clean => ?_⟩
  · rw [raised_of_upgrade running hraised]
    exact joined clean
  · refine ⟨own.join (c.registry.getLabel script).1, ?_, joined clean⟩
    rw [raised_of_upgrade running hraised]
    show target.objectLabel.map _ = _
    rw [hown, Option.map_some]
  · rw [raised_of_upgradeNode running hraised]
    exact joined clean

/-- In every run, an ordinary script that raises labels gives them the policy source exactly if its origin
counts as policy. -/
theorem upgrades_mint_policy_iff (config : Config) (ops : List Operation) (script : String)
    (running : ((ofConfig config).run ops).currentScript? = some script)
    (ordinary : ((ofConfig config).run ops).registry.isPolicyOrigin script = false) :
    MintsPolicyIff ((ofConfig config).run ops) (((ofConfig config).run ops).registry.CountsAsPolicy script) :=
  mintsPolicyIff_of_label running ((slotted_run config ops).has_policy_getLabel ordinary)

/-- A script of an origin with its own slot raises an object, and neither label gets the policy source. -/
theorem upgrades_mint_own_slot :
    let c := (ofConfig {}).run [.hook (.enterScript "a")]
    (c.upgrade (.object () .bottom .secret)).1 = .ok ⟨4, false⟩ ∧
      (c.upgrade (.object () .bottom .secret)).2.1 = .object () ⟨4, false⟩ ⟨6, false⟩ ∧
      ¬ (Label.mk 4 false).Has policySource := by
  refine ⟨rfl, rfl, ?_⟩
  have h := upgrades_mint_policy_iff {} [.hook (.enterScript "a")] "a" rfl rfl
  exact mt (h.value (.object () .bottom .secret) ⟨4, false⟩ rfl (by decide)).mp (by decide)

/-- Two ordinary scripts give a public value the policy label: the host of the first is spelled like the key
of the slot of policy, and before the second came all free slots were given to others. -/
theorem ordinary_scripts_mint_policy :
    let spelled := (ofConfig {}).run [.hook (.enterScript "policy")]
    let crowded := (ofConfig { origins := (List.range 61).map toString }).run [.hook (.enterScript "late")]
    (spelled.currentScript? = some "policy" ∧ spelled.registry.isPolicyOrigin "policy" = false ∧
      (spelled.upgrade (.ofPublic ())).2.1 = .primitive () .policy) ∧
    crowded.currentScript? = some "late" ∧ crowded.registry.isPolicyOrigin "late" = false ∧
      (crowded.upgrade (.ofPublic ())).2.1 = .primitive () .policy := by
  decide +kernel

end InfoFlow.Context

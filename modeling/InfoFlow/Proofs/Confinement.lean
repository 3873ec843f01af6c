import InfoFlow.Proofs.PolicyAnswers
import InfoFlow.Proofs.StackMoves

/-! # Confinement inside a branch

A branch on a secret puts the secret's source on its region, and every region opened inside inherits it.
So as long as the branch is not left, the program counter shows the source: what is written gets it,
places without it are not written, and nothing is done in the name of policy code. -/

namespace InfoFlow

open Label (policySource)

variable {source : Nat}

namespace Stack

/-- Every frame carries the source. -/
def Carries (source : Nat) (t : Stack) : Prop := ∀ f ∈ t.top :: t.below, f.label.Has source

namespace Carries

variable {t u : Stack}

theorem head (h : t.Carries source) : t.head.Has source := h t.top List.mem_cons_self

/-- No move takes a source other than the policy source from a frame. -/
theorem moves (h : t.Carries source) (hs : source ≠ policySource) {ordinary : Bool} (hmoves : t.Moves ordinary u) :
    u.Carries source := by
  intro f hf
  cases hmoves with
  | opened hlabel _ =>
    rcases List.mem_cons.mp hf with rfl | hf
    · exact hlabel.flows.has (h.head.inherited hs ordinary)
    · exact h f hf
  | left hleft hraised hbelow =>
    rcases List.mem_cons.mp hf with rfl | hf
    · exact hraised.label.flows.has (h _ (hleft.subset List.mem_cons_self))
    · exact h f (hleft.subset (List.mem_cons_of_mem _ (hbelow ▸ hf)))

end Carries
end Stack

/-- No operation takes a source other than the policy source from a frame. -/
theorem Control.carries_perform {privileged : String → Bool} {k : Control} (op : Operation)
    (h : k.stack.Carries source) (hs : source ≠ policySource) : (k.perform privileged op).stack.Carries source :=
  h.moves hs (k.moves_perform privileged op)

namespace Context

variable {c : Context}

/-- What a source of the program counter means for the operations. A refused operation of policy code
leaves the globals, the event context's label among them, and the store of its node as they are. -/
structure Confined (source : Nat) (c : Context) : Prop where
  pc : c.pc.Has source
  write : ∀ existing value label, (c.checkedWrite existing value).1 = .ok label →
    existing.Has source ∧ label.Has source
  upgrade : ∀ {α : Type} (target : Labeled α) label, (c.upgrade target).1 = .ok label →
    target.label.Has source
  upgradeNode : ∀ store node label, (c.upgradeNode store node).1 = .ok label → (store.labelOf node).Has source
  assign : ∀ {α : Type} (target : Labeled α) hint,
    (c.assign target hint).1 = .error (.notPolicyContext c.pc) ∧ (c.assign target hint).2.2.globals = c.globals
  assignNode : ∀ store node hint,
    (c.assignNode store node hint).1 = .error (.notPolicyContext c.pc) ∧ (c.assignNode store node hint).2.1 = store
  setEventContext : ∀ urls,
    (c.setEventContext urls).1 = .error (.notPolicyContext c.pc) ∧
      (c.setEventContext urls).2.globals = c.globals

theorem Confined.of_pc (enforced : c.globals.mode = .enforce) (hpc : c.pc.Has source) (hs : source ≠ policySource) :
    Confined source c := by
  have hne : c.pc ≠ .policy := hpc.ne_policy hs
  have target_has {target : Label} (h : c.globals.mode.permits c.pc target = true) : target.Has source :=
    Enforcement.has_of_permits (enforced ▸ h) hpc hs
  refine ⟨hpc, ?_, ?_, ?_, fun target hint => assign_of_ne hne target hint,
    fun store node hint => assignNode_of_ne hne store node hint, fun urls => setEventContext_of_ne hne urls⟩
  · intro existing value label h
    obtain ⟨hpermits, rfl⟩ := permits_of_checkedWrite h
    exact ⟨target_has hpermits, Label.has_join.mpr (Or.inr hpc)⟩
  · intro α target label h
    exact target_has (permits_of_upgrade h)
  · intro store node label h
    exact target_has (permits_of_upgradeNode h)

/-- The regions above `base` carry the source, and writes are checked. -/
def Tainted (source : Nat) (base : List Frame) (c : Context) : Prop :=
  c.globals.mode = .enforce ∧ ∃ k : Control, c.control = k.atop base ∧ k.stack.Carries source

theorem Tainted.perform {base : List Frame} {op : Operation} (h : Tainted source base c) (hs : source ≠ policySource)
    (hop : ∀ mode, op ≠ .setEnforcement mode) (hdepth : base.length ≤ (c.perform op).stack.depth) :
    Tainted source base (c.perform op) := by
  obtain ⟨hmode, k, hk, hcarries⟩ := h
  have hperform := control_perform c op
  rw [hk] at hperform
  have hlocal : base.length ≤ ((k.atop base).perform c.registry.isPolicyOrigin op).stack.depth := by
    rw [← hperform]
    exact hdepth
  rw [Control.perform_atop hlocal] at hperform
  exact ⟨(mode_perform c hop).trans hmode, k.perform c.registry.isPolicyOrigin op, hperform,
    Control.carries_perform op hcarries hs⟩

end Context
end InfoFlow

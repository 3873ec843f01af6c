import InfoFlow.Label

/-! # Sources of labels

A label is looked at through its sources: a join has those of both sides, `without` takes some away,
and `FlowsTo` is inclusion. What the no-sensitive-upgrade rule lets pass is read off the sources too. Where
the mark of a deferred upgrade counts as well, labels are compared by `Covers`. -/

namespace InfoFlow
namespace Label

variable {a b : Label} {source : Nat}

def Has (l : Label) (source : Nat) : Prop := l.sources.getLsbD source = true

instance (l : Label) (source : Nat) : Decidable (l.Has source) :=
  inferInstanceAs (Decidable (l.sources.getLsbD source = true))

/-- The source that marks code of policy scripts. -/
def policySource : Nat := 0

/-- The source of the reserved slot for secrets. -/
def secretSource : Nat := 1

@[simp] theorem has_join : (a.join b).Has source ↔ a.Has source ∨ b.Has source := by
  simp [Has, join]

@[simp] theorem not_has_bottom : ¬ bottom.Has source := by
  simp [Has, bottom, ofSources]

@[simp] theorem has_policy : policy.Has source ↔ source = policySource := by
  simp [Has, policy, ofSources, policySource]

@[simp] theorem has_without : (a.without b).Has source ↔ a.Has source ∧ ¬ b.Has source := by
  simp only [Has, without, BitVec.getLsbD_and, BitVec.getLsbD_not, Bool.and_eq_true, Bool.not_eq_true',
    decide_eq_true_eq, Bool.not_eq_true]
  exact ⟨fun ⟨ha, _, hb⟩ => ⟨ha, hb⟩, fun ⟨ha, hb⟩ => ⟨ha, BitVec.lt_of_getLsbD ha, hb⟩⟩

/-- A label flows to another one if that has all its sources. -/
theorem FlowsTo.has (h : a.FlowsTo b) (ha : a.Has source) : b.Has source := by
  have : (a.sources ||| b.sources).getLsbD source = true := by
    rw [BitVec.getLsbD_or, show a.sources.getLsbD source = true from ha, Bool.true_or]
  rwa [show a.sources ||| b.sources = b.sources from h] at this

/-- A source other than the policy source excludes the policy label. -/
theorem Has.isPolicy_eq_false (h : a.Has source) (hs : source ≠ policySource) : a.isPolicy = false := by
  cases hp : a.isPolicy with
  | false => rfl
  | true =>
    have hsources : a.sources = policy.sources := by simpa [isPolicy] using hp
    have hpolicy : policy.Has source := by rw [Has, ← hsources]; exact h
    exact absurd (has_policy.mp hpolicy) hs

theorem Has.ne_policy (h : a.Has source) (hs : source ≠ policySource) : a ≠ policy := by
  rintro rfl
  exact hs (has_policy.mp h)

/-! ### Labels as sets of sources -/

theorem flowsTo_iff : a.FlowsTo b ↔ ∀ source, a.Has source → b.Has source := by
  refine ⟨fun h _ => h.has, fun h => BitVec.eq_of_getLsbD_eq fun i _ => ?_⟩
  rw [BitVec.getLsbD_or, Bool.or_eq_right_iff_imp]
  exact h i

theorem FlowsTo.trans {c : Label} (h : a.FlowsTo b) (h' : b.FlowsTo c) : a.FlowsTo c :=
  flowsTo_iff.mpr fun _ ha => h'.has (h.has ha)

theorem flowsTo_join_right : b.FlowsTo (a.join b) :=
  flowsTo_iff.mpr fun _ hb => has_join.mpr (Or.inr hb)

theorem isPublic_iff : a.isPublic = true ↔ ∀ source, ¬ a.Has source := by
  refine ⟨fun h source hs => ?_, fun h => beq_iff_eq.mpr (BitVec.eq_of_getLsbD_eq fun i _ => ?_)⟩
  · rw [Has, beq_iff_eq.mp h] at hs
    simp at hs
  · simpa [Has] using h i

theorem isPolicy_iff : a.isPolicy = true ↔ ∀ source, a.Has source ↔ source = policySource := by
  refine ⟨fun h source => ?_, fun h => beq_iff_eq.mpr (BitVec.eq_of_getLsbD_eq fun i _ => ?_)⟩
  · rw [Has, beq_iff_eq.mp h]
    exact has_policy
  · exact Bool.eq_iff_iff.mpr ((h i).trans has_policy.symm)

/-- A join with a label other than the policy label is the policy label only if that label is public. -/
theorem isPolicy_join_iff (h : b.isPolicy = false) :
    (a.join b).isPolicy = true ↔ a.isPolicy = true ∧ b.isPublic = true := by
  simp only [isPolicy_iff, isPublic_iff, has_join]
  refine ⟨fun hjoin => ?_, fun ⟨ha, hb⟩ source => ?_⟩
  · have hb : ∀ source, ¬ b.Has source := by
      intro source hs
      obtain rfl := (hjoin source).mp (Or.inr hs)
      refine Bool.eq_false_iff.mp h (isPolicy_iff.mpr fun other => ⟨fun ho => (hjoin other).mp (Or.inr ho), ?_⟩)
      rintro rfl
      exact hs
    exact ⟨fun source => by simpa [hb source] using hjoin source, hb⟩
  · simp [ha source, hb source]

/-- The label of a slot has the source of that slot and no other. -/
theorem has_ofSlot {slot : Nat} : (ofSlot slot).Has source ↔ slot = source + 1 ∧ slot ≤ 64 := by
  unfold ofSlot
  split
  · simp only [not_has_bottom, false_iff]
    omega
  · rw [Has, ofSources, BitVec.getLsbD_twoPow]
    simp only [Bool.and_eq_true, decide_eq_true_eq]
    omega

/-- The labels have no source in common. -/
def Disjoint (a b : Label) : Prop := ∀ source, ¬ (a.Has source ∧ b.Has source)

theorem disjoint_ofSlot {slot slot' : Nat} (h : slot ≠ slot') : (ofSlot slot).Disjoint (ofSlot slot') := by
  rintro source ⟨hs, hs'⟩
  have hslot := (has_ofSlot.mp hs).1
  have hslot' := (has_ofSlot.mp hs').1
  exact h (hslot.trans hslot'.symm)

/-! ### Labels and their marks -/

/-- The label `b` has the sources of `a`, and the mark of a deferred upgrade if `a` has it. -/
structure Covers (b a : Label) : Prop where
  flows : a.FlowsTo b
  deferred : a.deferred = true → b.deferred = true

theorem Covers.refl (a : Label) : a.Covers a := ⟨flowsTo_iff.mpr fun _ ha => ha, id⟩

theorem Covers.trans {c : Label} (h : c.Covers b) (h' : b.Covers a) : c.Covers a :=
  ⟨h'.flows.trans h.flows, fun ha => h.deferred (h'.deferred ha)⟩

theorem covers_join_left : (a.join b).Covers a :=
  ⟨flowsTo_iff.mpr fun _ ha => has_join.mpr (Or.inl ha), fun ha => by simp [join, ha]⟩

/-- A label takes in nothing that it covers. -/
theorem Covers.join_eq (h : b.Covers a) : a.join b = b := by
  have hdeferred : (a.deferred || b.deferred) = b.deferred := Bool.or_eq_right_iff_imp.mpr h.deferred
  have hsources : a.sources ||| b.sources = b.sources := h.flows
  rw [join, hsources, hdeferred]

end Label

/-- Where writes are checked, code other than policy code may write a place whose label has all sources of
the program counter and is not the policy label. -/
theorem Enforcement.permits_iff {pc target : Label} (h : pc.isPolicy = false) :
    Enforcement.enforce.permits pc target = true ↔ target.isPolicy = false ∧ pc.FlowsTo target := by
  simp [permits, h]

/-- Where writes are checked, a source of the program counter other than the policy source has to be
one of the written place. -/
theorem Enforcement.has_of_permits {pc target : Label} {source : Nat}
    (h : Enforcement.enforce.permits pc target = true) (hpc : pc.Has source)
    (hs : source ≠ Label.policySource) : target.Has source := by
  simp only [permits, hpc.isPolicy_eq_false hs, Bool.false_or, Bool.and_eq_true, decide_eq_true_eq] at h
  exact h.2.has hpc

end InfoFlow

import Mathlib.Data.List.Basic
import InfoFlow.Proofs.Sources

/-! # The order of labels and their joins

The join of a list of labels is their least upper bound: it has the sources of all of them and no other, and the
mark of a deferred upgrade if one of them has it. A label is the join of the single sources that it lists, each
given by the slot that owns it.

The order compares sources, and the mark counts only where labels are equal. So labels that differ in the mark
alone are strictly below each other, and these are the only exception to the laws of a strict order. -/

namespace InfoFlow
namespace Label

variable {a b c : Label} {labels labels' : List Label} {source : Nat}

theorem ext_of_has (hsources : ∀ source, a.Has source ↔ b.Has source) (hmark : a.deferred = b.deferred) : a = b := by
  have hbits : a.sources = b.sources :=
    BitVec.eq_of_getLsbD_eq fun i _ => Bool.eq_iff_iff.mpr (hsources i)
  cases a
  cases b
  exact congr (congrArg Label.mk hbits) hmark

/-! ### Joins of lists -/

theorem deferred_join : (a.join b).deferred = true ↔ a.deferred = true ∨ b.deferred = true :=
  Bool.or_eq_true_iff

/-- What holds of a join exactly if it holds of one side holds of a longer join exactly if it holds of one of the
labels that are joined. -/
theorem foldl_join_iff (P : Label → Prop) (hjoin : ∀ a b : Label, P (a.join b) ↔ P a ∨ P b) (start : Label) :
    P (labels.foldl join start) ↔ P start ∨ ∃ l ∈ labels, P l := by
  induction labels generalizing start with
  | nil => simp
  | cons l rest ih => rw [List.foldl_cons, ih, hjoin, or_assoc, List.exists_mem_cons_iff]

theorem has_joinAll : (joinAll labels).Has source ↔ ∃ l ∈ labels, l.Has source :=
  (foldl_join_iff (Has · source) (fun _ _ => has_join) bottom).trans (or_iff_right not_has_bottom)

theorem deferred_joinAll : (joinAll labels).deferred = true ↔ ∃ l ∈ labels, l.deferred = true :=
  (foldl_join_iff (deferred · = true) (fun _ _ => deferred_join) bottom).trans (or_iff_right Bool.false_ne_true)

/-- Which labels there are decides on their join, and neither their order nor how often they occur. -/
theorem joinAll_congr (h : ∀ l, l ∈ labels ↔ l ∈ labels') : joinAll labels = joinAll labels' := by
  refine ext_of_has (fun source => ?_) (Bool.eq_iff_iff.mpr ?_)
  · simp only [has_joinAll, h]
  · simp only [deferred_joinAll, h]

theorem joinAll_append : joinAll (labels ++ labels') = (joinAll labels).join (joinAll labels') := by
  refine ext_of_has (fun source => ?_) (Bool.eq_iff_iff.mpr ?_)
  · simp only [has_join, has_joinAll, List.mem_append, or_and_right, exists_or]
  · simp only [deferred_join, deferred_joinAll, List.mem_append, or_and_right, exists_or]

/-- The label `u` is the least upper bound of the labels, and it is deferred exactly if one of them is. -/
structure IsJoin (labels : List Label) (u : Label) : Prop where
  covers : ∀ l ∈ labels, u.Covers l
  least : ∀ v : Label, (∀ l ∈ labels, l.FlowsTo v) → u.FlowsTo v
  deferred : u.deferred = true → ∃ l ∈ labels, l.deferred = true

theorem isJoin_joinAll (labels : List Label) : IsJoin labels (joinAll labels) where
  covers l hl := by
    refine ⟨flowsTo_iff.mpr fun source hs => ?_, fun hdeferred => ?_⟩
    · exact has_joinAll.mpr ⟨l, hl, hs⟩
    · exact deferred_joinAll.mpr ⟨l, hl, hdeferred⟩
  least v hv := by
    refine flowsTo_iff.mpr fun source hs => ?_
    obtain ⟨l, hl, hs⟩ := has_joinAll.mp hs
    exact (hv l hl).has hs
  deferred := deferred_joinAll.mp

/-! ### Labels from their sources -/

theorem mem_sourceList {l : Label} : source ∈ l.sourceList ↔ l.Has source := by
  rw [sourceList, List.mem_filter, List.mem_range]
  exact ⟨And.right, fun hs => ⟨BitVec.lt_of_getLsbD hs, hs⟩⟩

theorem deferred_ofSlot (slot : Nat) : (ofSlot slot).deferred = false := by
  unfold ofSlot
  split <;> rfl

theorem joinAll_ofSlot_sourceList (l : Label) :
    joinAll (l.sourceList.map fun source => ofSlot (source + 1)) = l.settle := by
  refine ext_of_has (fun source => ?_) (Bool.eq_false_iff.mpr fun hdeferred => ?_)
  · refine has_joinAll.trans ⟨fun ⟨single, hsingle, hs⟩ => ?_, fun hs => ?_⟩
    · obtain ⟨other, hother, rfl⟩ := List.mem_map.mp hsingle
      -- Slot `n + 1` owns source `n` and no other one.
      obtain rfl : other = source := Nat.succ.inj (has_ofSlot.mp hs).1
      exact mem_sourceList.mp hother
    · have hlt : source < 64 := BitVec.lt_of_getLsbD hs
      exact ⟨_, List.mem_map_of_mem (mem_sourceList.mpr hs), has_ofSlot.mpr ⟨rfl, hlt⟩⟩
  · obtain ⟨marked, hmarked, hdeferred⟩ := deferred_joinAll.mp hdeferred
    obtain ⟨source, -, rfl⟩ := List.mem_map.mp hmarked
    rw [deferred_ofSlot] at hdeferred
    cases hdeferred

/-- A label lists its sources in increasing order, and it is the join of the slots that own them. -/
structure Decomposes (l : Label) : Prop where
  increasing : l.sourceList.Pairwise (· < ·)
  mem_iff : ∀ source, source ∈ l.sourceList ↔ l.Has source
  joined : joinAll (l.sourceList.map fun source => ofSlot (source + 1)) = l.settle

theorem decomposes (l : Label) : l.Decomposes where
  increasing := List.pairwise_lt_range.filter _
  mem_iff _ := mem_sourceList
  joined := joinAll_ofSlot_sourceList l

/-- The join of a list of labels is their least upper bound, whatever their order and however often they occur, and
every label is the join of its sources. -/
theorem joins_least_and_generated :
    (∀ labels : List Label, IsJoin labels (joinAll labels)) ∧
      (∀ labels labels' : List Label, (∀ l, l ∈ labels ↔ l ∈ labels') → joinAll labels = joinAll labels') ∧
      (∀ labels labels' : List Label, joinAll (labels ++ labels') = (joinAll labels).join (joinAll labels')) ∧
      ∀ l : Label, l.Decomposes :=
  ⟨isJoin_joinAll, fun _ _ => joinAll_congr, fun _ _ => joinAll_append, decomposes⟩

/-- The policy source and the last source, of which the second is marked. -/
example :
    joinAll [policy, (ofSlot 64).defer, policy] = ⟨0x8000000000000001, true⟩ ∧
      (joinAll [policy, (ofSlot 64).defer, policy]).sourceList = [0, 63] := by decide

/-! ### The strict order -/

/-- The labels have the same sources, and one of them is marked and the other one is not. -/
def DiffersInMark (a b : Label) : Prop := a.settle = b.settle ∧ a.deferred ≠ b.deferred

instance (a b : Label) : Decidable (a.DiffersInMark b) :=
  inferInstanceAs (Decidable (a.settle = b.settle ∧ a.deferred ≠ b.deferred))

/-- Labels that flow to each other have the same sources. -/
theorem settle_eq_iff : a.settle = b.settle ↔ a.FlowsTo b ∧ b.FlowsTo a := by
  refine ⟨fun h => ?_, fun ⟨hab, hba⟩ => ?_⟩
  · have hsources : a.sources = b.sources := congrArg (·.sources) h
    constructor <;> rw [FlowsTo, hsources] <;> exact BitVec.or_self
  · exact ext_of_has (fun _ => ⟨hab.has, hba.has⟩) rfl

theorem eq_iff_settle_eq : a = b ↔ a.settle = b.settle ∧ a.deferred = b.deferred := by
  refine ⟨fun h => ⟨congrArg settle h, congrArg Label.deferred h⟩, fun ⟨hsettle, hmark⟩ => ?_⟩
  have hsources : a.sources = b.sources := congrArg (·.sources) hsettle
  exact ext_of_has (fun source => by rw [Has, Has, hsources]) hmark

theorem StrictlyBelow.irrefl (a : Label) : ¬ a.StrictlyBelow a := fun h => h.2 rfl

theorem strictlyAbove_iff : a.StrictlyAbove b ↔ b.StrictlyBelow a := and_congr_right fun _ => ne_comm

/-- Two labels are strictly below each other exactly if nothing but the mark tells them apart. -/
theorem strictlyBelow_both_iff : a.StrictlyBelow b ∧ b.StrictlyBelow a ↔ a.DiffersInMark b := by
  refine ⟨fun ⟨⟨hab, hne⟩, hba, _⟩ => ?_, fun ⟨hsettle, hmark⟩ => ?_⟩
  · have hsettle : a.settle = b.settle := settle_eq_iff.mpr ⟨hab, hba⟩
    exact ⟨hsettle, fun hmark => hne (eq_iff_settle_eq.mpr ⟨hsettle, hmark⟩)⟩
  · obtain ⟨hab, hba⟩ := settle_eq_iff.mp hsettle
    have hne : a ≠ b := fun heq => hmark (congrArg Label.deferred heq)
    exact ⟨⟨hab, hne⟩, hba, hne.symm⟩

/-- Two steps down the order lead below the start, unless they lead back to it. -/
theorem StrictlyBelow.trans_of_ne (h : a.StrictlyBelow b) (h' : b.StrictlyBelow c) (hne : a ≠ c) :
    a.StrictlyBelow c := ⟨h.1.trans h'.1, hne⟩

/-- The strict order is irreflexive and has the order above as its converse. It is asymmetric but for labels that
differ in the mark alone, and transitive but for a step to such a label and back. -/
theorem strictlyBelow_laws :
    (∀ a : Label, ¬ a.StrictlyBelow a) ∧
      (∀ a b : Label, a.StrictlyAbove b ↔ b.StrictlyBelow a) ∧
      (∀ a b : Label, a.StrictlyBelow b ∧ b.StrictlyBelow a ↔ a.DiffersInMark b) ∧
      ∀ a b c : Label, a.StrictlyBelow b → b.StrictlyBelow c →
        a.StrictlyBelow c ∨ a = c ∧ a.DiffersInMark b := by
  refine ⟨StrictlyBelow.irrefl, fun _ _ => strictlyAbove_iff, fun _ _ => strictlyBelow_both_iff, ?_⟩
  intro a b c hab hbc
  by_cases hac : a = c
  · subst hac
    exact Or.inr ⟨rfl, strictlyBelow_both_iff.mp ⟨hab, hbc⟩⟩
  · exact Or.inl (hab.trans_of_ne hbc hac)

/-- A step up and a step to the marked label, and a step to the marked label and back. -/
theorem strictlyBelow_laws_marked :
    (bottom.StrictlyBelow secret ∧ secret.StrictlyBelow secret.defer ∧ bottom.StrictlyBelow secret.defer) ∧
      secret.defer.StrictlyBelow secret ∧ secret.DiffersInMark secret.defer := by
  have hup : bottom.StrictlyBelow secret := by decide
  have hmark : secret.StrictlyBelow secret.defer := by decide
  have hback : secret.defer.StrictlyBelow secret := by decide
  have hthrough := strictlyBelow_laws.2.2.2 bottom secret secret.defer hup hmark
  have hround := strictlyBelow_laws.2.2.2 secret secret.defer secret hmark hback
  refine ⟨⟨hup, hmark, hthrough.resolve_right ?_⟩, hback, (hround.resolve_left (StrictlyBelow.irrefl _)).2⟩
  decide

/-- The marked label of secrets and the plain one are strictly below each other, and not below themselves. -/
theorem marked_secret_below_both :
    secret.StrictlyBelow secret.defer ∧ secret.defer.StrictlyBelow secret ∧ ¬ secret.StrictlyBelow secret := by
  decide

end Label
end InfoFlow

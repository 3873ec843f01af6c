import InfoFlow.Proofs.Hosts
import InfoFlow.Proofs.Recording
import InfoFlow.Proofs.Sources

/-! # Slots

In every registry that is reached by requests, entries have distinct keys, each carries the label of the slot
at which it stands, and the reserved ones come first. So the policy source belongs to the reserved key of
policy alone. The label of an origin has it in two cases: the origin's host is spelled like that key, or the
registry is full and has no slot for the origin. -/

namespace InfoFlow

open Label (policySource)

namespace Origin.Registry

variable {r : Registry} {url : String}

/-! ### Slots and keys -/

/-- The key of the slot that owns the policy source. -/
def policyKey : String := "policy"

/-- The key of the slot that owns the secret source. -/
def secretKey : String := "secret"

/-- The entries with which every registry starts. -/
def reservedEntries : List Entry := reservedKeys.mapIdx fun slot key => ⟨key, .ofSlot slot⟩

structure Slotted (r : Registry) : Prop where
  reserved : reservedEntries <+: r.entries
  labels : ∀ (slot : Nat) (e : Entry), r.entries[slot]? = some e → e.label = .ofSlot slot
  keys : (r.entries.map Entry.key).Nodup
  size : r.size ≤ capacity

theorem slotted_empty (traceId : String) : (empty traceId).Slotted where
  reserved := List.prefix_rfl
  labels := by
    intro slot e he
    rw [empty, List.getElem?_mapIdx] at he
    obtain ⟨key, -, rfl⟩ := Option.map_eq_some_iff.mp he
    rfl
  keys := show (reservedEntries.map Entry.key).Nodup by decide
  size := show reservedEntries.length ≤ capacity by decide

theorem Slotted.serve (h : r.Slotted) (request : Request) : (r.serve request).Slotted := by
  rcases entries_eq_or_adds r request with heq | ⟨key, hnew, hroom, hadds⟩
  · exact ⟨heq ▸ h.reserved, heq ▸ h.labels, heq ▸ h.keys, by rw [Registry.size, heq]; exact h.size⟩
  · constructor
    · rw [hadds]
      exact h.reserved.trans (List.prefix_append _ _)
    · intro slot e he
      rw [hadds] at he
      rcases Nat.lt_or_ge slot r.entries.length with hold | hlast
      · exact h.labels slot e (by rwa [List.getElem?_append_left hold] at he)
      · -- The added entry stands at the next slot, whose label it has.
        rw [List.getElem?_append_right hlast, List.getElem?_singleton] at he
        split at he
        · obtain rfl := Option.some.inj he
          have hslot : slot = r.size := by rw [Registry.size]; omega
          rw [hslot]
        · cases he
    · rw [hadds, List.map_append, List.map_singleton, List.nodup_append]
      refine ⟨h.keys, List.pairwise_singleton _ _, fun k hk last hlast => ?_⟩
      obtain ⟨e, he, rfl⟩ := List.mem_map.mp hk
      rw [List.mem_singleton.mp hlast]
      exact hnew e he
    · rw [Registry.size, hadds, List.length_append]
      exact hroom

theorem Slotted.serveAll (h : r.Slotted) (requests : List Request) : (r.serveAll requests).Slotted :=
  serveAll_of_kept h fun _ hr request => hr.serve request

/-- A key has one slot. -/
theorem Slotted.slot_eq_of_key (h : r.Slotted) {slot slot' : Nat} {e e' : Entry} (he : r.entries[slot]? = some e)
    (he' : r.entries[slot']? = some e') (hkey : e.key = e'.key) : slot = slot' := by
  have hbound : slot < (r.entries.map Entry.key).length := by
    rw [List.length_map]
    exact (List.getElem?_eq_some_iff.mp he).1
  refine (List.getElem?_inj hbound h.keys).mp ?_
  rw [List.getElem?_map, List.getElem?_map, he, he', Option.map_some, Option.map_some, hkey]

theorem Slotted.key_eq_policyKey_iff (h : r.Slotted) {slot : Nat} {e : Entry} (he : r.entries[slot]? = some e) :
    e.key = policyKey ↔ slot = 1 := by
  have hpolicy : r.entries[1]? = some ⟨policyKey, .ofSlot 1⟩ := by
    obtain ⟨rest, hrest⟩ := h.reserved
    rw [← hrest]
    rfl
  constructor
  · intro hkey
    exact h.slot_eq_of_key he hpolicy hkey
  · rintro rfl
    obtain rfl := Option.some.inj (hpolicy.symm.trans he)
    rfl

theorem Slotted.has_policy_iff (h : r.Slotted) {slot : Nat} {e : Entry} (he : r.entries[slot]? = some e) :
    e.label.Has policySource ↔ e.key = policyKey := by
  rw [h.key_eq_policyKey_iff he, h.labels slot e he, Label.has_ofSlot, policySource]
  omega

/-- A slot other than that of no origin has its source. -/
theorem Slotted.has_label (h : r.Slotted) {slot : Nat} {e : Entry} (he : r.entries[slot]? = some e) (hpos : 0 < slot) :
    e.label.Has (slot - 1) := by
  have hslot : slot < r.size := (List.getElem?_eq_some_iff.mp he).1
  have hsize : r.size ≤ 64 := h.size
  rw [h.labels slot e he, Label.has_ofSlot]
  omega

/-! ### Labels of origins -/

/-- The origin of a URL counts as policy: its host is the key of policy, or no slot is left for it. -/
def CountsAsPolicy (r : Registry) (url : String) : Prop :=
  domain url = policyKey ∨ (r.isFull = true ∧ r.lookup url = none)

instance (r : Registry) (url : String) : Decidable (r.CountsAsPolicy url) :=
  inferInstanceAs (Decidable (domain url = policyKey ∨ (r.isFull = true ∧ r.lookup url = none)))

theorem Slotted.has_policy_lookup (h : r.Slotted) (ordinary : r.isPolicyOrigin url = false) {label : Label}
    (hlookup : r.lookup url = some label) : label.Has policySource ↔ domain url = policyKey := by
  unfold lookup at hlookup
  rw [ordinary, if_neg Bool.false_ne_true] at hlookup
  split at hlookup
  · rename_i hnull
    obtain rfl := Option.some.inj hlookup
    refine iff_of_false Label.not_has_bottom ?_
    rcases domain_of_isNull hnull with hdomain | hdomain <;> rw [hdomain] <;> decide
  · obtain ⟨⟨slot, label⟩, howned, rfl⟩ := Option.map_eq_some_iff.mp hlookup
    exact h.has_policy_iff (getElem?_of_owned? howned)

/-- The label of an ordinary origin has the policy source exactly if the origin counts as policy. -/
theorem Slotted.has_policy_getLabel (h : r.Slotted) (ordinary : r.isPolicyOrigin url = false) :
    (r.getLabel url).1.Has policySource ↔ r.CountsAsPolicy url := by
  cases hlookup : r.lookup url with
  | some label =>
    rw [getLabel_of_lookup hlookup, h.has_policy_lookup ordinary hlookup]
    simp [CountsAsPolicy, hlookup]
  | none =>
    -- The key of policy is taken from the start, so an origin without a slot has another one.
    have hreserved : domain url ≠ policyKey := by
      have hpolicy : (⟨policyKey, .ofSlot 1⟩ : Entry) ∈ r.entries := h.reserved.subset (by decide)
      exact ((lookup_eq_none_iff.mp hlookup).2.2 _ hpolicy).symm
    cases hfull : r.isFull with
    | true =>
      rw [getLabel_of_full hlookup hfull]
      simp [CountsAsPolicy, hlookup, hfull]
    | false =>
      have hsize : 3 ≤ r.size := h.reserved.length_le
      rw [(getLabel_of_room hlookup hfull).1, Label.has_ofSlot, policySource]
      simp only [CountsAsPolicy, hreserved, hfull, Bool.false_eq_true, false_and, or_self, iff_false]
      omega

end Origin.Registry

namespace Context

theorem slotted_run (config : Config) (ops : List Operation) : ((ofConfig config).run ops).registry.Slotted := by
  obtain ⟨requests, hrequests⟩ := served_run config ops
  rw [hrequests]
  exact (Origin.Registry.slotted_empty config.traceId).serveAll requests

end Context
end InfoFlow

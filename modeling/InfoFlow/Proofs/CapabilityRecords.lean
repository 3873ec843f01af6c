import InfoFlow.Proofs.FirstCome
import InfoFlow.Proofs.TableEvents

/-! # Records of the table of capabilities

The table gives its places to the first distinct names that are put, and a record stays where it was created,
with the labels that it was created with. Only its mask can change: it is the last one that was set for the
name or the position, or else the one that the record was created with. -/

namespace InfoFlow.CapabilityTable

open FirstCome

variable {t : CapabilityTable} {entry : Capability} {name : String} {index : Nat} {bits : UInt64}

/-- The names of the records, the null record's included. -/
def keys (t : CapabilityTable) : List String := t.entries.map Capability.name

/-! ### Putting a record -/

/-- What a table of the run `traceId` reports of a name that it has no room for. -/
def refusal (traceId name : String) : Event where
  traceId
  component := .declassificationTable
  activity := .capabilityRecorded
  outcome := .dropped
  errorCode := some tableFullCode
  subject := some name

theorem index?_of_ne {name : String} (h : name ≠ "") : t.index? name = (t.keys.tail.idxOf? name).map (· + 1) := by
  rw [index?, if_neg h, List.idxOf?, keys, ← List.map_tail, List.findIdx?_map, List.drop_one]
  rfl

theorem index?_eq_none_iff (hnull : [""] <+: t.keys) {name : String} (h : name ≠ "") :
    t.index? name = none ↔ name ∉ t.keys := by
  obtain ⟨listed, hkeys⟩ := hnull
  rw [index?_of_ne h, ← hkeys, Option.map_eq_none_iff, List.idxOf?_eq_none_iff]
  simp [h]

/-- The event with which a table reports a new record. -/
def success (t : CapabilityTable) (name : String) : Event :=
  { t.log.event .declassificationTable .capabilityRecorded .pass with subject := some name }

/-- What is answered to a record that is put, and the table afterwards. -/
inductive PutCase (t : CapabilityTable) (entry : Capability) : Option Nat × CapabilityTable → Prop
  | unnamed : entry.name = "" → PutCase t entry (none, t.refuse entry.name invalidNameCode .denied)
  | known {index : Nat} : entry.name ≠ "" → t.index? entry.name = some index → PutCase t entry (some index, t)
  | full : entry.name ≠ "" → t.index? entry.name = none → capacity ≤ t.size →
      PutCase t entry (none, t.refuse entry.name tableFullCode .dropped)
  | new : entry.name ≠ "" → t.index? entry.name = none → t.size < capacity →
      PutCase t entry
        (some t.size, { t with entries := t.entries ++ [entry], log := t.log.push (t.success entry.name) })

theorem put_cases (t : CapabilityTable) (entry : Capability) : t.PutCase entry (t.put entry) := by
  unfold put
  split
  · rename_i hunnamed
    exact .unnamed hunnamed
  · rename_i hname
    split
    · rename_i hindex
      exact .known hname hindex
    · rename_i hindex
      split
      · rename_i hfull
        exact .full hname hindex (of_decide_eq_true hfull)
      · rename_i hroom
        exact .new hname hindex (Nat.lt_of_not_le fun hfull => hroom (decide_eq_true hfull))

/-- What putting a named record does. -/
structure Puts (t : CapabilityTable) (name : String) (t' : CapabilityTable) : Prop where
  keys : t'.keys = grant capacity t.keys name
  traceId : t'.log.traceId = t.log.traceId
  diagnostics : t'.log.diagnostics =
    t.log.diagnostics ++ if name ∈ t'.keys then [] else [refusal t.log.traceId name]

theorem length_keys (t : CapabilityTable) : t.keys.length = t.size := List.length_map _

theorem puts_put (hnull : [""] <+: t.keys) (hname : entry.name ≠ "") : t.Puts entry.name (t.put entry).2 := by
  have hknown := index?_eq_none_iff hnull hname
  have hput := put_cases t entry
  generalize t.put entry = answer at hput ⊢
  cases hput with
  | unnamed hunnamed => exact absurd hunnamed hname
  | known _ hindex =>
    have hmem : entry.name ∈ t.keys := by
      by_contra hnew
      rw [hknown.mpr hnew] at hindex
      cases hindex
    exact ⟨(grant_of_mem hmem).symm, rfl, by rw [if_pos hmem, List.append_nil]⟩
  | full _ hindex hfull =>
    have hkept : (t.refuse entry.name tableFullCode .dropped).keys = t.keys := rfl
    refine ⟨(grant_of_full (t.length_keys ▸ hfull)).symm, rfl, ?_⟩
    rw [hkept, if_neg (hknown.mp hindex)]
    exact EventLog.diagnostics_push _ _
  | new _ hindex hroom =>
    have hkeys : (t.entries ++ [entry]).map Capability.name = t.keys ++ [entry.name] := List.map_append
    refine ⟨?_, rfl, ?_⟩
    · rw [grant_of_new (hknown.mp hindex) (t.length_keys ▸ hroom)]
      exact hkeys
    · rw [keys, hkeys, if_pos (List.mem_append_right _ (List.mem_singleton_self _))]
      exact EventLog.diagnostics_push _ _

/-- At most the record that is put is added, and that only if it has a name. -/
theorem entries_put (t : CapabilityTable) (entry : Capability) :
    (t.put entry).2.entries = t.entries ∨
      entry.name ≠ "" ∧ (t.put entry).2.entries = t.entries ++ [entry] := by
  have hput := put_cases t entry
  generalize t.put entry = answer at hput ⊢
  cases hput with
  | unnamed | known | full => exact Or.inl rfl
  | new hname => exact Or.inr ⟨hname, rfl⟩

theorem entries_prefix_put (t : CapabilityTable) (entry : Capability) : t.entries <+: (t.put entry).2.entries := by
  rcases entries_put t entry with hsame | ⟨-, hadded⟩
  · exact hsame ▸ List.prefix_rfl
  · exact hadded ▸ List.prefix_append _ _

/-! ### Changing a mask -/

/-- A mask can be set where there is a record that is not the null record. -/
theorem setBitsAt_eq_true_iff : (t.setBitsAt index bits).1 = true ↔ 0 < index ∧ index < t.size := by
  unfold setBitsAt
  split <;> simp_all

/-- A change of a mask changes no other record and nothing else of this one. -/
theorem getElem?_setBitsAt (i : Nat) :
    (t.setBitsAt index bits).2.entries[i]? =
      (t.entries[i]?).map fun e => if index = i ∧ (t.setBitsAt index bits).1 = true then { e with bits } else e := by
  unfold setBitsAt
  split
  · rw [List.getElem?_modify]
    by_cases h : index = i <;> simp [h]
  · simp

theorem setBits_of_index? (h : t.index? name = some index) : t.setBits name bits = t.setBitsAt index bits := by
  simp only [setBits, h]

theorem setBits_of_none (h : t.index? name = none) : t.setBits name bits = (false, t) := by
  simp only [setBits, h]

theorem keys_setBitsAt : (t.setBitsAt index bits).2.keys = t.keys := by
  refine List.ext_getElem? fun i => ?_
  rw [keys, keys, List.getElem?_map, List.getElem?_map, getElem?_setBitsAt, Option.map_map]
  congr 1
  funext e
  simp only [Function.comp_apply]
  split <;> rfl

theorem keys_setBits : (t.setBits name bits).2.keys = t.keys := by
  cases h : t.index? name with
  | some index => rw [setBits_of_index? h, keys_setBitsAt]
  | none => rw [setBits_of_none h]

end InfoFlow.CapabilityTable

import Mathlib.Data.List.Induction
import Mathlib.Data.List.Nodup

/-! # First come, first served

A table with a bounded number of places gives one to each new key, and keeps what it has. When keys are put
into it one after the other, the first distinct ones get the places that are free. -/

namespace InfoFlow.FirstCome

/-- A table of keys takes a new key as long as it has room. -/
def grant (capacity : Nat) (taken : List String) (key : String) : List String :=
  if key ∈ taken ∨ capacity ≤ taken.length then taken else taken ++ [key]

variable {capacity : Nat} {taken keys : List String} {key : String}

theorem grant_of_mem (h : key ∈ taken) : grant capacity taken key = taken := if_pos (Or.inl h)

theorem grant_of_full (h : capacity ≤ taken.length) : grant capacity taken key = taken := if_pos (Or.inr h)

theorem grant_of_new (h : key ∉ taken) (room : taken.length < capacity) :
    grant capacity taken key = taken ++ [key] :=
  if_neg fun hor => hor.elim h (Nat.not_le_of_lt room)

theorem prefix_grant : taken <+: grant capacity taken key := by
  unfold grant
  split
  · exact List.prefix_rfl
  · exact List.prefix_append _ _

/-- What stands at a position of a table stays there while the table gets longer. -/
theorem getElem?_of_prefix {α : Type} {l l' : List α} {i : Nat} {a : α} (h : l <+: l') (ha : l[i]? = some a) :
    l'[i]? = some a := by
  obtain ⟨added, rfl⟩ := h
  rw [List.getElem?_append_left (List.getElem?_eq_some_iff.mp ha).1, ha]

theorem nodup_grant (h : taken.Nodup) : (grant capacity taken key).Nodup := by
  unfold grant
  split
  · exact h
  · rename_i hnew
    rw [not_or] at hnew
    exact List.concat_eq_append ▸ h.concat hnew.1

theorem length_grant_le (h : taken.length ≤ capacity) : (grant capacity taken key).length ≤ capacity := by
  unfold grant
  split
  · exact h
  · rename_i hnew
    rw [not_or, Nat.not_le] at hnew
    rw [List.length_append]
    exact hnew.2

/-- A key is refused only if there is no room for any other. -/
theorem full_of_not_mem_grant (h : key ∉ grant capacity taken key) : capacity ≤ taken.length := by
  by_contra hroom
  by_cases hmem : key ∈ taken
  · exact h (prefix_grant.subset hmem)
  · rw [grant_of_new hmem (Nat.lt_of_not_le hroom)] at h
    exact h (List.mem_append_right _ (List.mem_singleton_self key))

theorem prefix_foldl_grant : taken <+: keys.foldl (grant capacity) taken := by
  induction keys generalizing taken with
  | nil => exact List.prefix_rfl
  | cons key rest ih => exact prefix_grant.trans ih

theorem foldl_grant_of_full (h : capacity ≤ taken.length) : keys.foldl (grant capacity) taken = taken := by
  induction keys with
  | nil => rfl
  | cons key rest ih => rw [List.foldl_cons, grant_of_full h, ih]

/-- What becomes of a key is settled when it is put. -/
theorem mem_foldl_grant_iff :
    key ∈ keys.foldl (grant capacity) (grant capacity taken key) ↔ key ∈ grant capacity taken key := by
  refine ⟨fun h => ?_, fun h => prefix_foldl_grant.subset h⟩
  by_contra hrefused
  have hfull := full_of_not_mem_grant hrefused
  rw [grant_of_full hfull] at h hrefused
  rw [foldl_grant_of_full hfull] at h
  exact hrefused h

/-! ### First occurrences -/

theorem eraseDups_concat (l : List String) (a : String) :
    (l ++ [a]).eraseDups = if a ∈ l then l.eraseDups else l.eraseDups ++ [a] := by
  rw [List.eraseDups_append]
  by_cases h : a ∈ l <;> simp [List.removeAll, List.eraseDups_cons, h]

theorem nodup_eraseDups (l : List String) : l.eraseDups.Nodup := by
  induction l using List.reverseRecOn with
  | nil => exact List.nodup_nil
  | append_singleton rest a ih =>
    rw [eraseDups_concat]
    split
    · exact ih
    · rename_i hnew
      exact List.concat_eq_append ▸ ih.concat fun hmem => hnew (List.mem_eraseDups.mp hmem)

theorem eraseDups_eq_self {l : List String} (h : l.Nodup) : l.eraseDups = l := by
  induction l using List.reverseRecOn with
  | nil => rfl
  | append_singleton rest a ih =>
    obtain ⟨hrest, -, hdisjoint⟩ := List.nodup_append.mp h
    have hnew : a ∉ rest := fun hmem => hdisjoint a hmem a (List.mem_singleton_self a) rfl
    rw [eraseDups_concat, if_neg hnew, ih hrest]

/-- All keys are among the first distinct ones exactly if there are no more. -/
theorem forall_mem_take_eraseDups_iff {n : Nat} :
    (∀ key ∈ keys, key ∈ keys.eraseDups.take n) ↔ keys.eraseDups.length ≤ n := by
  refine ⟨fun h => ?_, fun h key hkey => ?_⟩
  · have hsubset : keys.eraseDups ⊆ keys.eraseDups.take n := fun key hkey => h key (List.mem_eraseDups.mp hkey)
    exact Nat.le_trans ((nodup_eraseDups keys).length_le_of_subset hsubset) (List.length_take_le _ _)
  · rw [List.take_of_length_le h]
    exact List.mem_eraseDups.mpr hkey

/-- A table takes the first distinct keys for which it has room. -/
theorem foldl_grant (hroom : taken.length ≤ capacity) (hnew : ∀ key ∈ keys, key ∉ taken) :
    keys.foldl (grant capacity) taken = taken ++ keys.eraseDups.take (capacity - taken.length) := by
  induction keys using List.reverseRecOn with
  | nil => simp
  | append_singleton rest key ih =>
    have hrest := ih fun other hother => hnew other (List.mem_append_left _ hother)
    have hkey : key ∉ taken := hnew key (List.mem_append_right _ (List.mem_singleton_self key))
    rw [List.foldl_append, hrest, List.foldl_cons, List.foldl_nil, eraseDups_concat]
    rcases Nat.lt_or_ge rest.eraseDups.length (capacity - taken.length) with hfree | hfull
    · -- All distinct keys so far have found room.
      rw [List.take_of_length_le (Nat.le_of_lt hfree)]
      by_cases hmem : key ∈ rest
      · rw [if_pos hmem, List.take_of_length_le (Nat.le_of_lt hfree)]
        exact grant_of_mem (List.mem_append_right _ (List.mem_eraseDups.mpr hmem))
      · have hother : key ∉ taken ++ rest.eraseDups := by
          rw [List.mem_append, List.mem_eraseDups, not_or]
          exact ⟨hkey, hmem⟩
        have hlength : (rest.eraseDups ++ [key]).length ≤ capacity - taken.length := by
          rw [List.length_append]
          exact hfree
        rw [if_neg hmem, List.take_of_length_le hlength, ← List.append_assoc]
        refine grant_of_new hother ?_
        rw [List.length_append]
        omega
    · have hle : capacity ≤ (taken ++ rest.eraseDups.take (capacity - taken.length)).length := by
        rw [List.length_append, List.length_take]
        omega
      rw [grant_of_full hle]
      by_cases hmem : key ∈ rest
      · rw [if_pos hmem]
      · rw [if_neg hmem, List.take_append_of_le_length hfull]

end InfoFlow.FirstCome

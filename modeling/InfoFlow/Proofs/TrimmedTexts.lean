import Mathlib.Data.List.DropRight
import InfoFlow.Proofs.Hosts

/-! # Trimmed texts

A text is trimmed if no white space stands at its ends. To trim a text twice is to trim it once, white space
that is put around a text is trimmed away, and trimming does not look at the case of letters. -/

namespace InfoFlow.Text

variable {c : Char} {cs before after : List Char}

/-- No white space stands at the ends of a text. -/
structure Trimmed (cs : List Char) : Prop where
  head : ∀ c ∈ cs.head?, isBlank c = false
  last : ∀ c ∈ cs.getLast?, isBlank c = false

/-! ### The end of a text -/

theorem trimEnd_append (xs ys : List Char) :
    trimEnd (xs ++ ys) = if trimEnd ys = [] then trimEnd xs else xs ++ trimEnd ys := by
  induction xs with
  | nil => by_cases h : trimEnd ys = [] <;> simp [h, trimEnd]
  | cons c xs ih =>
    rw [List.cons_append, trimEnd, ih]
    by_cases h : trimEnd ys = []
    · rw [if_pos h, if_pos h, trimEnd]
    · rw [if_neg h, if_neg h]
      cases hkept : xs ++ trimEnd ys with
      | nil => exact absurd (List.append_eq_nil_iff.mp hkept).2 h
      | cons d ds => rw [List.cons_append, hkept]

theorem trimEnd_eq_rdropWhile (cs : List Char) : trimEnd cs = cs.rdropWhile isBlank := by
  induction cs using List.reverseRecOn with
  | nil => rfl
  | append_singleton cs c ih =>
    rw [trimEnd_append, List.rdropWhile_concat, ih]
    cases h : isBlank c <;> simp [trimEnd, h]

/-- A character that is not white space keeps what stands in front of it. -/
theorem trimEnd_append_cons (h : isBlank c = false) (xs ys : List Char) :
    trimEnd (xs ++ c :: ys) = xs ++ c :: trimEnd ys := by
  have hkept : trimEnd (c :: ys) = c :: trimEnd ys := by
    rw [trimEnd]
    cases trimEnd ys <;> simp [h]
  rw [trimEnd_append, hkept, if_neg (List.cons_ne_nil _ _)]

theorem trimEnd_of_last (h : ∀ c ∈ cs.getLast?, isBlank c = false) : trimEnd cs = cs := by
  rw [trimEnd_eq_rdropWhile, List.rdropWhile_eq_self_iff]
  intro hne
  simp [h _ (List.getLast?_eq_getLast_of_ne_nil hne)]

/-! ### Trimming -/

theorem trimmed_trim (cs : List Char) : Trimmed (trim cs) where
  head := by
    intro c hc
    rw [trim, trimEnd_eq_rdropWhile] at hc
    -- What is left at the end is a prefix of what is left at the front.
    have hhead := List.head?_dropWhile_not isBlank cs
    obtain ⟨rest, hrest⟩ := List.rdropWhile_prefix isBlank (cs.dropWhile isBlank)
    rw [← hrest, List.head?_append, Option.mem_def.mp hc, Option.some_or] at hhead
    exact hhead
  last := by
    intro c hc
    rw [trim, trimEnd_eq_rdropWhile] at hc
    obtain ⟨hne, rfl⟩ := List.mem_getLast?_eq_getLast hc
    exact Bool.eq_false_iff.mpr (List.rdropWhile_last_not isBlank _ hne)

theorem trim_of_head (h : ∀ c ∈ cs.head?, isBlank c = false) : trim cs = trimEnd cs := by
  cases cs with
  | nil => rfl
  | cons c rest => rw [trim, List.dropWhile_cons_of_neg (by simp [h c rfl])]

theorem trim_eq_self_iff : trim cs = cs ↔ Trimmed cs := by
  refine ⟨fun h => h ▸ trimmed_trim cs, fun h => ?_⟩
  rw [trim_of_head h.head, trimEnd_of_last h.last]

theorem trim_trim (cs : List Char) : trim (trim cs) = trim cs := trim_eq_self_iff.mpr (trimmed_trim cs)

theorem trim_append_of_blank (h : ∀ c ∈ before, isBlank c = true) (cs : List Char) :
    trim (before ++ cs) = trim cs := by
  rw [trim, List.dropWhile_append_of_pos h, trim]

theorem trim_append_blank (h : ∀ c ∈ after, isBlank c = true) (cs : List Char) : trim (cs ++ after) = trim cs := by
  have hafter : trimEnd after = [] := by
    rw [trimEnd_eq_rdropWhile]
    exact List.rdropWhile_eq_nil_iff.mpr h
  rw [trim, trim, List.dropWhile_append]
  split
  · rename_i hfront
    rw [List.isEmpty_iff.mp hfront, List.dropWhile_eq_nil_iff.mpr h]
  · rw [trimEnd_append, if_pos hafter]

/-- White space around a text is trimmed away. -/
theorem trim_surrounded (hbefore : ∀ c ∈ before, isBlank c = true) (hafter : ∀ c ∈ after, isBlank c = true)
    (cs : List Char) : trim (before ++ cs ++ after) = trim cs := by
  rw [trim_append_blank hafter, trim_append_of_blank hbefore]

theorem trim_subset (cs : List Char) : trim cs ⊆ cs := by
  rw [trim, trimEnd_eq_rdropWhile]
  exact List.Subset.trans (List.rdropWhile_prefix _ _).subset (List.dropWhile_sublist _).subset

/-! ### The case of letters -/

theorem isBlank_toLower (c : Char) : isBlank c.toLower = isBlank c := by
  refine toLower_invariant (fun c hlow hhigh => ?_) c
  simp [isBlank, blankRanges]
  omega

theorem lower_eq_self (h : ∀ c ∈ cs, c.isUpper = false) : lower cs = cs :=
  (List.map_congr_left fun c hc => toLower_eq_self (h c hc)).trans (List.map_id cs)

theorem trim_lower (cs : List Char) : trim (lower cs) = lower (trim cs) := by
  have hblank : isBlank ∘ Char.toLower = isBlank := funext isBlank_toLower
  have hfront (cs : List Char) : (lower cs).dropWhile isBlank = lower (cs.dropWhile isBlank) := by
    rw [lower, List.dropWhile_map, hblank, lower]
  have hback (cs : List Char) : (lower cs).reverse = lower cs.reverse := List.map_reverse.symm
  rw [trim, trim, trimEnd_eq_rdropWhile, trimEnd_eq_rdropWhile, List.rdropWhile, List.rdropWhile, hfront, hback,
    hfront, hback]

end InfoFlow.Text

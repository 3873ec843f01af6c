import InfoFlow.Origin.Url

/-! # Hosts

An origin is known by the host of its URL, which is in lower case: no letter of it is a capital one. A URL
that names no origin has no host, or the null word in place of one. -/

namespace InfoFlow
namespace Text

/-- The code of a lower-case letter is above that of the capital one. -/
theorem toNat_toLower {c : Char} (h : c.isUpper = true) : c.toLower.toNat = c.toNat + 32 := by
  have hupper : c.val ≥ 'A'.val ∧ c.val ≤ 'Z'.val := of_decide_eq_true h
  have hhigh : c.val.toNat ≤ 90 := hupper.2
  have hlower : c.toLower.val = c.val + ('a'.val - 'A'.val) := congrArg Char.val (dif_pos hupper)
  show c.toLower.val.toNat = c.val.toNat + 32
  rw [hlower, UInt32.toNat_add, show ('a'.val - 'A'.val).toNat = 32 from rfl]
  omega

theorem toLower_eq_self {c : Char} (h : c.isUpper = false) : c.toLower = c := dif_neg (of_decide_eq_false h)

theorem toNat_of_isUpper {c : Char} (h : c.isUpper = true) : 65 ≤ c.toNat ∧ c.toNat ≤ 90 := of_decide_eq_true h

theorem isUpper_toLower (c : Char) : c.toLower.isUpper = false := by
  cases h : c.isUpper with
  | true =>
    rw [Bool.eq_false_iff]
    intro hupper
    have hcode := toNat_toLower h
    have hlow := (toNat_of_isUpper h).1
    have hhigh := (toNat_of_isUpper hupper).2
    omega
  | false => rwa [toLower_eq_self h]

/-- What no character from `A` to `z` has does not depend on the case of letters. -/
theorem toLower_invariant {p : Char → Bool} (h : ∀ c : Char, 65 ≤ c.toNat → c.toNat ≤ 122 → p c = false) (c : Char) :
    p c.toLower = p c := by
  cases hc : c.isUpper with
  | true =>
    obtain ⟨hlow, hhigh⟩ := toNat_of_isUpper hc
    have hcode := toNat_toLower hc
    rw [h c hlow (by omega), h c.toLower (by omega) (by omega)]
  | false => rw [toLower_eq_self hc]

theorem isUpper_of_mem_lower {c : Char} {cs : List Char} (h : c ∈ lower cs) : c.isUpper = false := by
  obtain ⟨d, -, rfl⟩ := List.mem_map.mp h
  exact isUpper_toLower d

end Text

namespace Origin

/-- The characters of a host are characters of its URL. -/
theorem hostOf_subset (url : List Char) : hostOf url ⊆ url := by
  unfold hostOf
  split
  · rename_i rest hrest
    obtain ⟨marker, -, hmarker⟩ := List.exists_of_findSome?_eq_some hrest
    unfold afterMarker? at hmarker
    split at hmarker
    · obtain rfl := Option.some.inj hmarker
      exact List.Subset.trans (List.takeWhile_sublist _).subset (List.drop_subset _ url)
    · cases hmarker
  · exact List.Subset.refl url

/-- After a marker the host goes on to the first character that ends hosts. -/
theorem hostOf_marked {marker : List Char} (h : marker ∈ hostMarkers) (text : List Char) :
    hostOf (marker ++ text) = text.takeWhile (!endsHost ·) := by
  simp only [hostMarkers, List.mem_cons, List.not_mem_nil, or_false] at h
  rcases h with rfl | rfl | rfl <;> rfl

theorem slash_mem_of_mem_hostMarkers {marker : List Char} (h : marker ∈ hostMarkers) : '/' ∈ marker := by
  simp only [hostMarkers, List.mem_cons, List.not_mem_nil, or_false] at h
  rcases h with rfl | rfl | rfl <;> decide

/-- A text without a slash has no marker. -/
theorem hostOf_unmarked {url : List Char} (h : '/' ∉ url) : hostOf url = url := by
  have hnone : hostMarkers.findSome? (afterMarker? url) = none := by
    rw [List.findSome?_eq_none_iff]
    intro marker hmarker
    refine if_neg fun hstarts => h ?_
    exact (List.isPrefixOf_iff_prefix.mp hstarts).subset (slash_mem_of_mem_hostMarkers hmarker)
  rw [hostOf, hnone]

/-- What is cut out of a URL holds no character that ends hosts. -/
theorem hostOf_cases (url : List Char) : hostOf url = url ∨ ∀ c ∈ hostOf url, endsHost c = false := by
  unfold hostOf
  split
  · refine Or.inr fun c hc => ?_
    have hkept := List.all_eq_true.mp List.all_takeWhile c hc
    rwa [Bool.not_eq_true'] at hkept
  · exact Or.inl rfl

theorem endsHost_toLower (c : Char) : endsHost c.toLower = endsHost c := by
  refine Text.toLower_invariant (fun c hlow hhigh => ?_) c
  simp only [endsHost, Bool.or_eq_false_iff, beq_eq_false_iff_ne]
  refine ⟨⟨?_, ?_⟩, ?_⟩ <;> rintro rfl <;> revert hlow hhigh <;> decide

theorem isUpper_of_mem_domain {url : String} {c : Char} (h : c ∈ (domain url).toList) : c.isUpper = false := by
  rw [domain, String.toList_ofList] at h
  exact Text.isUpper_of_mem_lower (hostOf_subset _ h)

theorem domain_ne_of_isUpper {url key : String} (h : key.toList.any Char.isUpper = true) : domain url ≠ key := by
  rintro rfl
  obtain ⟨c, hc, hupper⟩ := List.any_eq_true.mp h
  exact Bool.eq_false_iff.mp (isUpper_of_mem_domain hc) hupper

theorem eq_of_isNullLike_schemeOf {text : List Char} (h : (schemeOf text).isNullLike = true) :
    text = [] ∨ text = "null".toList := by
  unfold schemeOf at h
  split at h
  · exact Or.inl ‹_›
  · split at h
    · exact Or.inr ‹_›
    · repeat' split at h
      all_goals cases h

/-- A URL that names no origin has no host, or the null word in place of one. -/
theorem domain_of_isNull {url : String} (h : isNull url = true) : domain url = "" ∨ domain url = "null" := by
  rcases Bool.or_eq_true_iff.mp h with hscheme | hdomain
  · rcases eq_of_isNullLike_schemeOf hscheme with htext | htext
    · rw [domain, htext]
      exact Or.inl (by decide)
    · rw [domain, htext]
      exact Or.inr (by decide)
  · exact Or.inl (beq_iff_eq.mp hdomain)

end Origin
end InfoFlow

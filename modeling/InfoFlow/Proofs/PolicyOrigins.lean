import InfoFlow.Origin.Registry

/-! # The list of policy origins

Only the registration of a policy origin changes the list, and it only makes the list longer: who is a
policy origin stays one. -/

namespace InfoFlow.Origin.Registry

variable {r : Registry} {key url : String}

@[simp] theorem policyOrigins_append : (r.append key).2.policyOrigins = r.policyOrigins := by
  unfold append
  split <;> rfl

@[simp] theorem policyOrigins_putOrigin : (r.putOrigin url).2.policyOrigins = r.policyOrigins := by
  have happend : (r.append (domain url)).2.policyOrigins = r.policyOrigins := policyOrigins_append
  unfold putOrigin
  split
  · rfl
  · split
    · rfl
    · split <;> simp_all

@[simp] theorem policyOrigins_getLabel : (r.getLabel url).2.policyOrigins = r.policyOrigins := by
  have happend : (r.append (domain url)).2.policyOrigins = r.policyOrigins := policyOrigins_append
  cases hlookup : r.lookup url with
  | some label => rw [getLabel_of_lookup hlookup]
  | none =>
    rw [getLabel_of_unknown hlookup, firstLabel]
    split <;> simp_all

theorem policyOrigins_putPolicy : r.policyOrigins ⊆ (r.putPolicy url).2.policyOrigins := by
  unfold putPolicy
  split
  · exact List.Subset.refl _
  · exact List.subset_append_left _ _

theorem policyOrigins_put {asPolicy : Bool} : r.policyOrigins ⊆ (r.put url asPolicy).2.policyOrigins := by
  cases asPolicy
  · show r.policyOrigins ⊆ (r.putOrigin url).2.policyOrigins
    rw [policyOrigins_putOrigin]
    exact List.Subset.refl _
  · exact policyOrigins_putPolicy

/-- Whether a URL belongs to a policy origin depends on the list of policy origins only. -/
theorem isPolicyOrigin_congr {r' : Registry} (h : r'.policyOrigins = r.policyOrigins) :
    r'.isPolicyOrigin = r.isPolicyOrigin := by
  funext url
  simp only [isPolicyOrigin, h]

theorem isPolicyOrigin_mono {r' : Registry} (h : r.policyOrigins ⊆ r'.policyOrigins)
    (hurl : r.isPolicyOrigin url = true) : r'.isPolicyOrigin url = true := by
  obtain ⟨origin, horigin, heq⟩ := List.any_eq_true.mp hurl
  exact List.any_eq_true.mpr ⟨origin, h horigin, heq⟩

theorem ordinary_of_subset {r' : Registry} (h : r.policyOrigins ⊆ r'.policyOrigins)
    (ordinary : r'.isPolicyOrigin url = false) : r.isPolicyOrigin url = false := by
  rw [Bool.eq_false_iff] at ordinary ⊢
  intro hurl
  exact ordinary (isPolicyOrigin_mono h hurl)

end InfoFlow.Origin.Registry

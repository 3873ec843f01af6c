import InfoFlow.Proofs.Slots

/-! # Labels of origins

What the registry once answers for a URL it answers for ever: entries are only appended, each host has at
most one of them, and a registry that has become full stays full. The only later change is that the URL's
origin is registered as a policy origin. A registration as an ordinary origin does not look at the list of
policy origins: it gives such an origin a slot too, whose label a look-up never shows. -/

namespace InfoFlow.Origin.Registry

variable {r r' : Registry} {url : String} {label : Label}

/-! ### Growth -/

theorem entries_prefix_serveAll (r : Registry) (requests : List Request) :
    r.entries <+: (r.serveAll requests).entries :=
  serveAll_of_kept (P := fun r' => r.entries <+: r'.entries) List.prefix_rfl fun r' hr request =>
    hr.trans (entries_prefix_serve r' request)

theorem policyOrigins_serveAll (r : Registry) (requests : List Request) :
    r.policyOrigins ⊆ (r.serveAll requests).policyOrigins :=
  serveAll_of_kept (P := fun r' => r.policyOrigins ⊆ r'.policyOrigins) (List.Subset.refl _) fun r' hr request =>
    List.Subset.trans hr (policyOrigins_serve r' request)

/-- A registered policy origin is that of a URL: it is the same text, or has the same host. -/
def IsOriginOf (origin url : String) : Prop := origin = url ∨ (domain url ≠ "" ∧ domain origin = domain url)

theorem isPolicyOrigin_iff : r.isPolicyOrigin url = true ↔ ∃ origin ∈ r.policyOrigins, IsOriginOf origin url := by
  simp [isPolicyOrigin, IsOriginOf]

theorem mem_policyOrigins_putPolicy {origin other : String} :
    origin ∈ (r.putPolicy other).2.policyOrigins ↔ origin ∈ r.policyOrigins ∨ origin = other := by
  unfold putPolicy
  split
  · rename_i hlisted
    refine ⟨Or.inl, fun h => h.elim id fun hother => ?_⟩
    rw [hother]
    exact List.contains_iff_mem.mp hlisted
  · simp

theorem mem_policyOrigins_serve {origin : String} {request : Request} :
    origin ∈ (r.serve request).policyOrigins ↔ origin ∈ r.policyOrigins ∨ request = .put origin true := by
  cases request with
  | put other asPolicy =>
    cases asPolicy with
    | true =>
      refine mem_policyOrigins_putPolicy.trans (or_congr_right ?_)
      simp [eq_comm]
    | false =>
      have hkept : (r.serve (.put other false)).policyOrigins = r.policyOrigins := policyOrigins_putOrigin
      simp [hkept]
  | getLabel other =>
    have hkept : (r.serve (.getLabel other)).policyOrigins = r.policyOrigins := policyOrigins_getLabel
    simp [hkept]
  | drain => simp [serve, Registry.drain]

theorem mem_policyOrigins_serveAll {origin : String} {requests : List Request} :
    origin ∈ (r.serveAll requests).policyOrigins ↔
      origin ∈ r.policyOrigins ∨ Request.put origin true ∈ requests := by
  induction requests generalizing r with
  | nil => simp [serveAll]
  | cons request rest ih =>
    rw [serveAll_cons, ih, mem_policyOrigins_serve, List.mem_cons, or_assoc, eq_comm (a := request)]

theorem isPolicyOrigin_serveAll_iff {requests : List Request} :
    (r.serveAll requests).isPolicyOrigin url = true ↔
      r.isPolicyOrigin url = true ∨ ∃ origin, Request.put origin true ∈ requests ∧ IsOriginOf origin url := by
  simp only [isPolicyOrigin_iff, mem_policyOrigins_serveAll, or_and_right, exists_or]

/-! ### Answers that stay -/

theorem Slotted.owned?_eq_some_iff (h : r.Slotted) {slot : Nat} :
    r.owned? url = some (slot, label) ↔ r.entries[slot]? = some ⟨domain url, label⟩ := by
  refine ⟨getElem?_of_owned?, fun he => ?_⟩
  cases howned : r.owned? url with
  | none => exact absurd rfl (owned?_eq_none_iff.mp howned _ (List.mem_of_getElem? he))
  | some found =>
    obtain ⟨slot', label'⟩ := found
    have he' := getElem?_of_owned? howned
    obtain rfl := h.slot_eq_of_key he he' rfl
    rw [he] at he'
    cases he'
    rfl

/-- The answer for a URL is found without a new entry: a look-up gives it, or the registry is full and has
no slot for the origin. -/
def Answers (r : Registry) (url : String) (label : Label) : Prop :=
  r.lookup url = some label ∨ (r.lookup url = none ∧ r.isFull = true ∧ label = .policy)

theorem Answers.getLabel (h : r.Answers url label) : (r.getLabel url).1 = label := by
  rcases h with hlookup | ⟨hlookup, hfull, rfl⟩
  · rw [getLabel_of_lookup hlookup]
  · rw [getLabel_of_full hlookup hfull]

theorem lookup_getLabel_of_room (h : r.lookup url = none) (room : r.isFull = false) :
    (r.getLabel url).2.lookup url = some (r.getLabel url).1 := by
  obtain ⟨hlabel, hentries⟩ := getLabel_of_room h room
  obtain ⟨hordinary, hnull, -⟩ := lookup_eq_none_iff.mp h
  have hpolicy : (r.getLabel url).2.isPolicyOrigin url = false := by
    rw [isPolicyOrigin_congr policyOrigins_getLabel]
    exact hordinary
  rw [hlabel]
  exact lookup_of_owned? hpolicy hnull (owned?_of_entries hentries)

theorem answers_getLabel (r : Registry) (url : String) : (r.getLabel url).2.Answers url (r.getLabel url).1 := by
  cases hlookup : r.lookup url with
  | some label =>
    rw [getLabel_of_lookup hlookup]
    exact Or.inl hlookup
  | none =>
    cases hfull : r.isFull with
    | true =>
      rw [getLabel_of_full hlookup hfull]
      exact Or.inr ⟨hlookup, hfull, rfl⟩
    | false => exact Or.inl (lookup_getLabel_of_room hlookup hfull)

theorem Answers.mono (h : r.Answers url label) (slotted : r.Slotted) (slotted' : r'.Slotted)
    (hentries : r.entries <+: r'.entries) (horigins : r.policyOrigins ⊆ r'.policyOrigins) :
    r'.Answers url (if r'.isPolicyOrigin url then .policy else label) := by
  cases hpolicy' : r'.isPolicyOrigin url with
  | true => exact Or.inl (lookup_of_isPolicyOrigin hpolicy')
  | false =>
    have hpolicy : r.isPolicyOrigin url = false := ordinary_of_subset horigins hpolicy'
    rw [if_neg Bool.false_ne_true]
    rcases h with hlookup | ⟨hlookup, hfull, rfl⟩
    · refine Or.inl ?_
      cases hnull : isNull url with
      | true =>
        rw [lookup, hpolicy, hnull] at hlookup
        rw [lookup, hpolicy', hnull]
        exact hlookup
      | false =>
        rw [lookup, hpolicy, hnull] at hlookup
        obtain ⟨⟨slot, label⟩, howned, rfl⟩ := Option.map_eq_some_iff.mp hlookup
        have hentry := slotted.owned?_eq_some_iff.mp howned
        have hentry' : r'.entries[slot]? = some ⟨domain url, label⟩ := FirstCome.getElem?_of_prefix hentries hentry
        exact lookup_of_owned? hpolicy' hnull (slotted'.owned?_eq_some_iff.mpr hentry')
    · -- A full registry cannot get longer, so it has the same entries.
      have hsize : capacity ≤ r.size := isFull_iff.mp hfull
      have hsame : r.entries = r'.entries :=
        hentries.eq_of_length_le (Nat.le_trans slotted'.size hsize)
      obtain ⟨-, hnull, hkeys⟩ := lookup_eq_none_iff.mp hlookup
      refine Or.inr ⟨lookup_eq_none_iff.mpr ⟨hpolicy', hnull, hsame ▸ hkeys⟩, ?_, rfl⟩
      rw [isFull, size, ← hsame]
      exact hfull

theorem Answers.serveAll (h : r.Answers url label) (slotted : r.Slotted) (requests : List Request) :
    (r.serveAll requests).Answers url (if (r.serveAll requests).isPolicyOrigin url then .policy else label) :=
  h.mono slotted (slotted.serveAll requests) (entries_prefix_serveAll r requests) (policyOrigins_serveAll r requests)

/-- What the registry answers for a URL, now and after any further requests. -/
structure StableLabel (r : Registry) (url : String) : Prop where
  /-- A look-up that finds a label changes nothing. -/
  known : ∀ label, r.lookup url = some label → r.getLabel url = (label, r)
  /-- A new origin gets a source that no entry has, and is known from then on. -/
  fresh : r.lookup url = none → r.isFull = false →
    (r.getLabel url).1.isPublic = false ∧ (∀ e ∈ r.entries, e.label.Disjoint (r.getLabel url).1) ∧
      (r.getLabel url).2.lookup url = some (r.getLabel url).1
  /-- A full registry records that it has no slot, and falls back to the policy label. -/
  refused : r.lookup url = none → r.isFull = true →
    r.getLabel url = (.policy, { r with log := r.log.append (r.refusals url) })
  later : ∀ requests : List Request,
    (((r.getLabel url).2.serveAll requests).getLabel url).1 =
      if ((r.getLabel url).2.serveAll requests).isPolicyOrigin url then .policy else (r.getLabel url).1
  promoted : ∀ requests : List Request,
    ((r.getLabel url).2.serveAll requests).isPolicyOrigin url = true ↔
      r.isPolicyOrigin url = true ∨ ∃ origin, Request.put origin true ∈ requests ∧ IsOriginOf origin url

theorem Slotted.disjoint_of_room (h : r.Slotted) : ∀ e ∈ r.entries, e.label.Disjoint (.ofSlot r.size) := by
  intro e he
  obtain ⟨slot, hslot⟩ := List.mem_iff_getElem?.mp he
  rw [h.labels slot e hslot]
  exact Label.disjoint_ofSlot (Nat.ne_of_lt (List.getElem?_eq_some_iff.mp hslot).1)

/-- In every registry that is reached by requests, labels of origins are stable. -/
theorem labels_stable (traceId : String) (before : List Request) (url : String) :
    StableLabel ((empty traceId).serveAll before) url := by
  have slotted := (slotted_empty traceId).serveAll before
  generalize (empty traceId).serveAll before = r at slotted
  refine ⟨fun label => getLabel_of_lookup, fun hlookup room => ?_, getLabel_of_full, fun requests => ?_,
    fun requests => ?_⟩
  · have hlabel := (getLabel_of_room hlookup room).1
    have hsize : reservedKeys.length ≤ r.size := slotted.reserved.length_le
    have hroom : r.size < capacity := by simpa [isFull] using room
    refine ⟨?_, hlabel ▸ slotted.disjoint_of_room, lookup_getLabel_of_room hlookup room⟩
    -- The source of the next slot is one of the label.
    rw [Bool.eq_false_iff, ne_eq, Label.isPublic_iff, hlabel]
    intro hnone
    refine hnone (r.size - 1) (Label.has_ofSlot.mpr ?_)
    simp only [reservedKeys, capacity, List.length_cons, List.length_nil] at hsize hroom
    omega
  · exact ((answers_getLabel r url).serveAll (slotted.serve (.getLabel url)) requests).getLabel
  · rw [isPolicyOrigin_serveAll_iff, isPolicyOrigin_congr policyOrigins_getLabel]

/-! ### Public origins -/

/-- The slot that an origin owns is not that of no origin, whose key is no host. -/
theorem Slotted.pos_of_owned? (h : r.Slotted) {slot : Nat} (howned : r.owned? url = some (slot, label)) : 0 < slot := by
  refine Nat.pos_of_ne_zero ?_
  rintro rfl
  have hnull : r.entries[0]? = some ⟨"NULL", .ofSlot 0⟩ := by
    obtain ⟨rest, hrest⟩ := h.reserved
    rw [← hrest]
    rfl
  have hentry := getElem?_of_owned? howned
  rw [hnull] at hentry
  exact domain_ne_of_isUpper (by decide) (congrArg Entry.key (Option.some.inj hentry)).symm

/-- Public are those URLs that name no origin, unless one of them is registered as a policy origin. -/
theorem Slotted.isPublic_getLabel_iff (h : r.Slotted) :
    (r.getLabel url).1.isPublic = true ↔ isNull url = true ∧ r.isPolicyOrigin url = false := by
  cases hpolicy : r.isPolicyOrigin url with
  | true =>
    rw [getLabel_of_lookup (lookup_of_isPolicyOrigin hpolicy)]
    exact iff_of_false (show ¬ Label.policy.isPublic = true by decide) fun h => Bool.false_ne_true h.2.symm
  | false =>
    cases hnull : isNull url with
    | true =>
      have hlookup : r.lookup url = some .bottom := by simp [lookup, hpolicy, hnull]
      rw [getLabel_of_lookup hlookup]
      exact iff_of_true (show Label.bottom.isPublic = true by decide) ⟨rfl, rfl⟩
    | false =>
      refine iff_of_false (fun hpublic => ?_) fun h => Bool.false_ne_true h.1
      -- The origin has a slot of its own, or is given one, or counts as policy.
      have hnone := Label.isPublic_iff.mp hpublic
      cases howned : r.owned? url with
      | some found =>
        rw [getLabel_of_lookup (lookup_of_owned? hpolicy hnull howned)] at hnone
        exact hnone _ (h.has_label (getElem?_of_owned? howned) (h.pos_of_owned? howned))
      | none =>
        have hlookup : r.lookup url = none :=
          lookup_eq_none_iff.mpr ⟨hpolicy, hnull, owned?_eq_none_iff.mp howned⟩
        cases hfull : r.isFull with
        | true =>
          rw [getLabel_of_full hlookup hfull] at hnone
          exact hnone _ (Label.has_policy.mpr rfl)
        | false =>
          have hsize := isFull_eq_false_iff.mp hfull
          have hreserved : reservedKeys.length ≤ r.size := h.reserved.length_le
          rw [(getLabel_of_room hlookup hfull).1] at hnone
          refine hnone (r.size - 1) (Label.has_ofSlot.mpr ?_)
          simp only [reservedKeys, capacity, List.length_cons, List.length_nil] at hsize hreserved
          omega

/-! ### What a registration reports -/

theorem isPolicyOrigin_putPolicy (r : Registry) (url : String) : (r.putPolicy url).2.isPolicyOrigin url = true :=
  isPolicyOrigin_iff.mpr ⟨url, mem_policyOrigins_putPolicy.mpr (Or.inr rfl), Or.inl rfl⟩

theorem label?_putPolicy (r : Registry) (url : String) : (r.putPolicy url).1.label? = some .policy := by
  unfold putPolicy
  split <;> rfl

/-- The label that a registration reports for an ordinary origin is found by a look-up. -/
theorem lookup_putOrigin (ordinary : r.isPolicyOrigin url = false) (h : (r.putOrigin url).1.label? = some label) :
    (r.putOrigin url).2.lookup url = some label := by
  have hpolicy : (r.putOrigin url).2.isPolicyOrigin url = false := by
    rw [isPolicyOrigin_congr policyOrigins_putOrigin]
    exact ordinary
  cases hnull : isNull url with
  | true =>
    rw [putOrigin_of_null hnull] at h ⊢
    rw [lookup, ordinary, hnull]
    exact h
  | false =>
    cases howned : r.owned? url with
    | some found =>
      rw [putOrigin_of_owned hnull howned] at h ⊢
      obtain rfl := Option.some.inj h
      exact lookup_of_owned? ordinary hnull howned
    | none =>
      cases hfull : r.isFull with
      | true =>
        rw [(putOrigin_of_full hnull howned hfull).1] at h
        cases h
      | false =>
        obtain ⟨hanswer, hentries⟩ := putOrigin_of_room hnull howned hfull
        rw [hanswer] at h
        obtain rfl := Option.some.inj h
        exact lookup_of_owned? hpolicy hnull (owned?_of_entries hentries)

/-- A registration as an ordinary origin takes a slot exactly if a URL names an origin that has none and a
slot is free. -/
theorem size_putOrigin_iff :
    (r.putOrigin url).2.size = r.size ↔ isNull url = true ∨ r.owned? url ≠ none ∨ r.isFull = true := by
  cases hnull : isNull url with
  | true => simp [putOrigin_of_null hnull]
  | false =>
    cases howned : r.owned? url with
    | some found => simp [putOrigin_of_owned hnull howned]
    | none =>
      cases hfull : r.isFull with
      | true => simp [size, (putOrigin_of_full hnull howned hfull).2]
      | false => simp [size, (putOrigin_of_room hnull howned hfull).2]

/-- What the answer to a registration and the number of entries tell. -/
structure RegistrationReport (r : Registry) (url : String) (asPolicy : Bool) : Prop where
  /-- The reported label is the one that a look-up finds, except that of a slot given to a policy origin. -/
  label : ∀ label, (r.put url asPolicy).1.label? = some label →
    ((r.put url asPolicy).2.lookup url = some label ↔
      asPolicy = true ∨ r.isPolicyOrigin url = false ∨ label = .policy)
  /-- Whether a slot is taken does not depend on who is a policy origin. -/
  size : (r.put url asPolicy).2.size = r.size ↔
    asPolicy = true ∨ isNull url = true ∨ r.owned? url ≠ none ∨ r.isFull = true

theorem registration_report (r : Registry) (url : String) (asPolicy : Bool) : RegistrationReport r url asPolicy := by
  cases asPolicy with
  | true =>
    refine ⟨fun label hlabel => ?_, ?_⟩
    · have hpolicy : label = .policy := Option.some.inj (hlabel.symm.trans (label?_putPolicy r url))
      refine iff_of_true ?_ (Or.inl rfl)
      rw [hpolicy]
      exact lookup_of_isPolicyOrigin (isPolicyOrigin_putPolicy r url)
    · refine iff_of_true ?_ (Or.inl rfl)
      exact congrArg List.length entries_putPolicy
  | false =>
    refine ⟨fun label hlabel => ?_, ?_⟩
    · cases hpolicy : r.isPolicyOrigin url with
      | true =>
        have hpolicy' : (r.put url false).2.isPolicyOrigin url = true :=
          isPolicyOrigin_mono policyOrigins_put hpolicy
        rw [lookup_of_isPolicyOrigin hpolicy']
        simp [eq_comm]
      | false => exact iff_of_true (lookup_putOrigin hpolicy hlabel) (Or.inr (Or.inl rfl))
    · have hsize : (r.put url false).2.size = r.size ↔ _ := size_putOrigin_iff
      simpa using hsize

/-- A policy origin that is registered again as an ordinary one gets a slot, and the answer is the label of
that slot, while a look-up still gives the policy label. -/
theorem policy_origin_takes_slot :
    let r := (empty "origin-registry").serveAll [.put "https://policy.example/m.js" true]
    let url := "https://policy.example/lib.js"
    r.isPolicyOrigin url = true ∧ (r.put url false).1.label? = some (.ofSlot 3) ∧
      (r.put url false).2.lookup url = some .policy ∧ (r.put url false).2.size = r.size + 1 := by
  decide +kernel

end InfoFlow.Origin.Registry

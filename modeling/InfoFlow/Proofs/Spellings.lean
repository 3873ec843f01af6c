import InfoFlow.Proofs.OriginLabels
import InfoFlow.Proofs.TrimmedTexts

/-! # Spellings of a host

A host can be written alone or in a URL, with white space around it and in letters of either case. Whoever has
the host of a URL has its domain, and the registry looks at nothing else of a URL that has one. So all
spellings of a host get the same answers, and what is registered under one of them is registered under all. -/

namespace InfoFlow.Origin

open Text (Trimmed isBlank lower trim)

variable {host text : List Char} {url url' : String}

/-! ### Texts that spell a host -/

/-- A name that a host can have. The null word is none. -/
structure IsHostName (host : List Char) : Prop where
  nonempty : host ≠ []
  whole : ∀ c ∈ host, endsHost c = false
  trimmed : Trimmed host
  named : lower host ≠ "null".toList

/-- A text that spells a host: its name alone, or behind a marker and in front of a rest that begins where
hosts end, with white space around it. The case of letters does not matter. -/
inductive Spells (host : List Char) : List Char → Prop
  | bare {name : List Char} : lower name = lower host → Spells host name
  | marked {marker name rest : List Char} : lower marker ∈ hostMarkers → lower name = lower host →
      (∀ c ∈ rest.head?, endsHost c = true) → Spells host (marker ++ name ++ rest)
  | surrounded {before text after : List Char} : (∀ c ∈ before, isBlank c = true) →
      (∀ c ∈ after, isBlank c = true) → Spells host text → Spells host (before ++ text ++ after)

theorem lower_append (xs ys : List Char) : lower (xs ++ ys) = lower xs ++ lower ys := List.map_append

/-- The lower-case form of a name of a host is one. -/
theorem IsHostName.lower (h : IsHostName host) : IsHostName (lower host) where
  nonempty := fun hnil => h.nonempty (List.map_eq_nil_iff.mp hnil)
  whole := by
    intro c hc
    obtain ⟨d, hd, rfl⟩ := List.mem_map.mp hc
    rw [endsHost_toLower]
    exact h.whole d hd
  trimmed := by
    have htrim : trim host = host := Text.trim_eq_self_iff.mpr h.trimmed
    rw [← Text.trim_eq_self_iff, Text.trim_lower, htrim]
  named := by
    rw [Text.lower_eq_self fun c hc => Text.isUpper_of_mem_lower hc]
    exact h.named

theorem IsHostName.slash (h : IsHostName host) : '/' ∉ host := fun hmem =>
  absurd (h.whole '/' hmem) (by decide)

theorem head_of_mem_hostMarkers {marker : List Char} (h : marker ∈ hostMarkers) :
    ∃ c rest, marker = c :: rest ∧ isBlank c = false := by
  simp only [hostMarkers, List.mem_cons, List.not_mem_nil, or_false] at h
  rcases h with rfl | rfl | rfl <;> exact ⟨_, _, rfl, by decide⟩

theorem isBlank_of_endsHost {c : Char} (h : endsHost c = true) : isBlank c = false := by
  simp only [endsHost, Bool.or_eq_true, beq_iff_eq] at h
  rcases h with (rfl | rfl) | rfl <;> decide

/-- Only the rest of a URL can have white space at its end. -/
theorem IsHostName.trim_marked (named : IsHostName host) {marker rest : List Char} (hmarker : marker ∈ hostMarkers)
    (hrest : ∀ c ∈ rest.head?, endsHost c = true) :
    ∃ kept, (∀ c ∈ kept.head?, endsHost c = true) ∧ trim (marker ++ host ++ rest) = marker ++ host ++ kept := by
  obtain ⟨first, others, rfl, hfirst⟩ := head_of_mem_hostMarkers hmarker
  have hhead : ∀ c ∈ (first :: others ++ host ++ rest).head?, isBlank c = false := by
    rintro c hc
    obtain rfl := Option.some.inj hc
    exact hfirst
  rw [Text.trim_of_head hhead]
  cases rest with
  | nil =>
    refine ⟨[], nofun, Text.trimEnd_of_last fun c hc => named.trimmed.last c ?_⟩
    rw [List.append_nil, List.getLast?_append_of_ne_nil _ named.nonempty] at hc
    exact hc
  | cons c rest =>
    have hends : endsHost c = true := hrest c rfl
    refine ⟨c :: Text.trimEnd rest, ?_, Text.trimEnd_append_cons (isBlank_of_endsHost hends) _ rest⟩
    rintro d hd
    obtain rfl := Option.some.inj hd
    exact hends

theorem IsHostName.takeWhile_append (named : IsHostName host) {rest : List Char}
    (hrest : ∀ c ∈ rest.head?, endsHost c = true) : (host ++ rest).takeWhile (!endsHost ·) = host := by
  have hnone : rest.takeWhile (!endsHost ·) = [] := by
    cases rest with
    | nil => rfl
    | cons c rest => exact List.takeWhile_cons_of_neg (by simp [hrest c rfl])
  rw [List.takeWhile_append_of_pos fun c hc => by rw [named.whole c hc]; rfl, hnone, List.append_nil]

theorem isNullLike_of_mem_slash (h : '/' ∈ text) : (schemeOf text).isNullLike = false := by
  rw [Bool.eq_false_iff]
  intro hnull
  rcases eq_of_isNullLike_schemeOf hnull with rfl | rfl <;> revert h <;> decide

/-- What spells a host is read as that host, and not as a text that stands for no origin. -/
theorem Spells.read (h : Spells host text) (named : IsHostName host) :
    hostOf (lower (trim text)) = lower host ∧ (schemeOf (lower (trim text))).isNullLike = false := by
  induction h with
  | @bare name hname =>
    have htrim : trim (lower host) = lower host := Text.trim_eq_self_iff.mpr named.lower.trimmed
    rw [← Text.trim_lower, hname, htrim]
    refine ⟨hostOf_unmarked named.lower.slash, ?_⟩
    rw [Bool.eq_false_iff]
    intro hnull
    exact (eq_of_isNullLike_schemeOf hnull).elim named.lower.nonempty named.named
  | @marked marker name rest hmarker hname hrest =>
    have hends : ∀ c ∈ (lower rest).head?, endsHost c = true := by
      intro c hc
      rw [Text.lower, List.head?_map] at hc
      obtain ⟨d, hd, rfl⟩ := Option.map_eq_some_iff.mp hc
      rw [endsHost_toLower]
      exact hrest d hd
    obtain ⟨kept, hkept, htrim⟩ := named.lower.trim_marked hmarker hends
    rw [← Text.trim_lower, lower_append, lower_append, hname, htrim]
    refine ⟨?_, isNullLike_of_mem_slash ?_⟩
    · rw [List.append_assoc, hostOf_marked hmarker, named.lower.takeWhile_append hkept]
    · rw [List.append_assoc]
      exact List.mem_append_left _ (slash_mem_of_mem_hostMarkers hmarker)
  | surrounded hbefore hafter _ ih => rwa [Text.trim_surrounded hbefore hafter]

theorem Spells.domain (h : Spells host url.toList) (named : IsHostName host) :
    domain url = String.ofList (lower host) := by
  rw [Origin.domain, (h.read named).1]

theorem Spells.domain_ne (h : Spells host url.toList) (named : IsHostName host) : Origin.domain url ≠ "" := by
  rw [h.domain named]
  intro hempty
  refine named.lower.nonempty ?_
  rw [← String.toList_ofList (l := lower host), hempty]
  rfl

theorem Spells.isNull (h : Spells host url.toList) (named : IsHostName host) : isNull url = false := by
  rw [Origin.isNull, Bool.or_eq_false_iff]
  exact ⟨(h.read named).2, beq_eq_false_iff_ne.mpr (h.domain_ne named)⟩

/-! ### The registry's answers -/

namespace Registry

variable {r : Registry}

/-- A URL with a domain belongs to the origins of that domain. -/
theorem isOriginOf_iff {origin : String} (h : domain url ≠ "") :
    IsOriginOf origin url ↔ domain origin = domain url := by
  constructor
  · rintro (rfl | ⟨-, hdomain⟩)
    · rfl
    · exact hdomain
  · intro hdomain
    exact Or.inr ⟨h, hdomain⟩

theorem isPolicyOrigin_of_domain_eq (h : domain url = domain url') (hne : domain url ≠ "") :
    r.isPolicyOrigin url = r.isPolicyOrigin url' := by
  rw [Bool.eq_iff_iff, isPolicyOrigin_iff, isPolicyOrigin_iff]
  refine exists_congr fun origin => and_congr_right fun _ => ?_
  rw [isOriginOf_iff hne, isOriginOf_iff (h ▸ hne), h]

theorem slot?_of_domain_eq (h : domain url = domain url') : r.slot? url = r.slot? url' := by
  rw [slot?, h, slot?]

theorem owned?_of_domain_eq (h : domain url = domain url') : r.owned? url = r.owned? url' := by
  rw [owned?, slot?_of_domain_eq h, owned?]

theorem lookup_of_domain_eq (h : domain url = domain url') (hne : domain url ≠ "") (hnull : isNull url = isNull url') :
    r.lookup url = r.lookup url' := by
  rw [lookup, isPolicyOrigin_of_domain_eq h hne, hnull, owned?_of_domain_eq h, lookup]

/-- A registration that is answered with a slot has left the origin with this slot. -/
theorem owned?_putOrigin (hnull : isNull url = false) {slot : Nat} {label : Label}
    (h : (r.putOrigin url).1 = .registered slot label ∨ (r.putOrigin url).1 = .alreadyRegistered slot label) :
    (r.putOrigin url).2.owned? url = some (slot, label) := by
  cases howned : r.owned? url with
  | some found =>
    rw [putOrigin_of_owned hnull howned] at h ⊢
    rcases h with h | h <;> cases h
    exact howned
  | none =>
    cases hfull : r.isFull with
    | true =>
      rw [(putOrigin_of_full hnull howned hfull).1] at h
      rcases h with h | h <;> cases h
    | false =>
      obtain ⟨hanswer, hentries⟩ := putOrigin_of_room hnull howned hfull
      rw [hanswer] at h
      rcases h with h | h <;> cases h
      exact owned?_of_entries hentries

/-- A registration is refused if the origin has no slot and none is free; then nothing changes. -/
theorem dropped_putOrigin_iff (hnull : isNull url = false) :
    (r.putOrigin url).1 = .dropped ↔ r.owned? url = none ∧ r.isFull = true := by
  cases howned : r.owned? url with
  | some found => simp [putOrigin_of_owned hnull howned]
  | none =>
    cases hfull : r.isFull with
    | true => simp [(putOrigin_of_full hnull howned hfull).1]
    | false => simp [(putOrigin_of_room hnull howned hfull).1]

theorem owned?_eq_none_congr {r' : Registry} (h : r'.entries = r.entries) :
    r'.owned? url = none ↔ r.owned? url = none := by
  rw [owned?_eq_none_iff, h, owned?_eq_none_iff]

/-- What the registry `r` makes of two spellings of a host, and what becomes of the second one when the first is
registered. -/
structure SpelledAlike (r : Registry) (host : List Char) (url url' : String) : Prop where
  domains : domain url = String.ofList (lower host) ∧ domain url' = String.ofList (lower host)
  isPolicyOrigin : r.isPolicyOrigin url = r.isPolicyOrigin url'
  slot? : r.slot? url = r.slot? url'
  lookup : r.lookup url = r.lookup url'
  asPolicy : (r.put url true).2.isPolicyOrigin url' = true ∧ (r.put url true).2.lookup url' = some .policy
  /-- The slot that the first spelling has got is that of the second one, which needs no other. -/
  registered : ∀ slot label,
    (r.put url false).1 = .registered slot label ∨ (r.put url false).1 = .alreadyRegistered slot label →
      (r.put url false).2.put url' false = (.alreadyRegistered slot label, (r.put url false).2)
  found : ∀ label, (r.put url false).1.label? = some label → r.isPolicyOrigin url = false →
    (r.put url false).2.lookup url' = some label
  /-- Without a free slot for the first spelling there is none for the second one. -/
  dropped : (r.put url false).1 = .dropped → ((r.put url false).2.put url' false).1 = .dropped

theorem spellings_agree (r : Registry) (named : IsHostName host) (h : Spells host url.toList)
    (h' : Spells host url'.toList) : SpelledAlike r host url url' := by
  have hdomain : domain url = domain url' := (h.domain named).trans (h'.domain named).symm
  have hne : domain url ≠ "" := h.domain_ne named
  have hnull : isNull url = false := h.isNull named
  have hnull' : isNull url' = false := h'.isNull named
  have hlookup (r : Registry) : r.lookup url = r.lookup url' :=
    lookup_of_domain_eq hdomain hne (hnull.trans hnull'.symm)
  have hpolicy : (r.put url true).2.isPolicyOrigin url' = true := by
    rw [← isPolicyOrigin_of_domain_eq hdomain hne]
    exact isPolicyOrigin_putPolicy r url
  refine ⟨⟨h.domain named, h'.domain named⟩, isPolicyOrigin_of_domain_eq hdomain hne, slot?_of_domain_eq hdomain,
    hlookup r, ⟨hpolicy, lookup_of_isPolicyOrigin hpolicy⟩, fun slot label hanswer => ?_,
    fun label hlabel ordinary => ?_, fun hdropped => ?_⟩
  · refine putOrigin_of_owned hnull' ?_
    rw [← owned?_of_domain_eq hdomain]
    exact owned?_putOrigin hnull hanswer
  · rw [← hlookup]
    exact lookup_putOrigin ordinary hlabel
  · obtain ⟨howned, hfull⟩ := (dropped_putOrigin_iff hnull).mp hdropped
    have hentries : (r.put url false).2.entries = r.entries := (putOrigin_of_full hnull howned hfull).2
    refine (dropped_putOrigin_iff hnull').mpr ⟨?_, ?_⟩
    · rwa [owned?_eq_none_congr hentries, ← owned?_of_domain_eq hdomain]
    · rwa [isFull, size, hentries]

/-- A host in a URL with other letters and white space around it, and the same host alone. -/
theorem spellings_agree_bank :
    let host := "bank.example".toList
    let url := "\u00a0HTTPS://Bank.Example/login \n"
    let url' := "BANK.example\u2003"
    IsHostName host ∧ Spells host url.toList ∧ Spells host url'.toList ∧
      SpelledAlike (empty "origin-registry") host url url' := by
  have blank {cs : List Char} (h : cs.all isBlank = true) : ∀ c ∈ cs, isBlank c = true := List.all_eq_true.mp h
  have whole : "bank.example".toList.all (!endsHost ·) = true := by decide
  have named : IsHostName "bank.example".toList :=
    ⟨by decide, by simpa using List.all_eq_true.mp whole, Text.trim_eq_self_iff.mp (by decide), by decide⟩
  have hslash : ∀ c ∈ "/login".toList.head?, endsHost c = true := by
    intro c hc
    obtain rfl : '/' = c := Option.some.inj hc
    rfl
  have hmarked : Spells "bank.example".toList ("HTTPS://".toList ++ "Bank.Example".toList ++ "/login".toList) :=
    .marked (by decide) (by decide) hslash
  have h : Spells "bank.example".toList "\u00a0HTTPS://Bank.Example/login \n".toList :=
    @Spells.surrounded _ "\u00a0".toList _ " \n".toList (blank (by decide)) (blank (by decide)) hmarked
  have hbare : Spells "bank.example".toList "BANK.example".toList := .bare (by decide)
  have h' : Spells "bank.example".toList "BANK.example\u2003".toList :=
    @Spells.surrounded _ [] _ "\u2003".toList (blank (by decide)) (blank (by decide)) hbare
  exact ⟨named, h, h', spellings_agree _ named h h'⟩

end Registry

end InfoFlow.Origin

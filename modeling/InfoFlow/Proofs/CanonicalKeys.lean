import InfoFlow.Proofs.SlotOrder
import InfoFlow.Proofs.TrimmedTexts

/-! # Canonical keys

Only a URL as a whole is trimmed. The host is taken from it as it stands, so a stored key can have white space
at its ends, or be the word that by itself stands for no origin. Any other key is its own key: its look-up finds
the entry, and the keys of a registry fill a new one with the same entries. -/

namespace InfoFlow.Origin

open Text (Trimmed isBlank lower trim)

variable {url key : String}

/-! ### Domains of domains -/

theorem toList_domain (url : String) : (domain url).toList = hostOf (lower (trim url.toList)) := String.toList_ofList

theorem lower_domain (url : String) : lower (domain url).toList = (domain url).toList :=
  Text.lower_eq_self fun _ hc => isUpper_of_mem_domain hc

/-- A domain is in lower case, and no marker stands in front of it, so that its own domain is what trimming
leaves of it. -/
theorem domain_domain (url : String) : (domain (domain url)).toList = trim (domain url).toList := by
  have hlower : lower (trim (domain url).toList) = trim (domain url).toList := by
    rw [← Text.trim_lower, lower_domain]
  rw [toList_domain, hlower, toList_domain]
  rcases hostOf_cases (lower (trim url.toList)) with hwhole | hcut
  · rw [hwhole, Text.trim_lower, Text.trim_trim, hwhole]
  · refine hostOf_unmarked fun hslash => ?_
    have hends := hcut '/' (Text.trim_subset _ hslash)
    cases hends

theorem domain_domain_eq_iff : domain (domain url) = domain url ↔ Trimmed (domain url).toList := by
  rw [← Text.trim_eq_self_iff, ← domain_domain, String.toList_inj]

/-- A text that is looked up under itself: it has no white space at its ends and is not the null word. -/
structure IsCanonical (key : String) : Prop where
  trimmed : Trimmed key.toList
  named : key ≠ "null"

theorem isNull_of_domain_ne (h : domain url ≠ "") :
    isNull url = true ↔ lower (trim url.toList) = "null".toList := by
  have hscheme : (scheme url).isNullLike = true ↔ lower (trim url.toList) = "null".toList := by
    refine ⟨fun hnull => (eq_of_isNullLike_schemeOf hnull).resolve_left fun hempty => h ?_, fun hnull => ?_⟩
    · rw [domain, hempty]
      rfl
    · rw [scheme, hnull]
      decide
  rw [isNull, Bool.or_eq_true, hscheme, beq_iff_eq, or_iff_left h]

/-! ### Stored keys -/

namespace Registry

variable {r : Registry} {traceId : String} {requests : List Request} {slot : Nat} {e : Entry}

/-- The domain of a URL that names an origin, other than a reserved key. -/
structure IsStored (key : String) : Prop where
  ordinary : key ∉ reservedKeys
  nonempty : key ≠ ""
  domain : ∃ url, domain url = key

theorem domain_ne_of_isNull (h : isNull url = false) : domain url ≠ "" :=
  beq_eq_false_iff_ne.mp (Bool.or_eq_false_iff.mp h).2

theorem isStored_of_slotKey? (h : slotKey? url = some key) : IsStored key := by
  have hordinary := slotKey?_ne_reserved h
  obtain ⟨hnull, -, -, rfl⟩ := slotKey?_eq_some_iff.mp h
  exact ⟨hordinary, domain_ne_of_isNull hnull, url, rfl⟩

theorem IsStored.toList_domain (h : IsStored key) : (Origin.domain key).toList = trim key.toList := by
  obtain ⟨url, rfl⟩ := h.domain
  exact domain_domain url

theorem IsStored.lower_trim (h : IsStored key) : lower (trim key.toList) = trim key.toList := by
  obtain ⟨url, rfl⟩ := h.domain
  rw [← Text.trim_lower, lower_domain]

/-- What a stored key asks for is canonical. -/
theorem IsStored.isCanonical_of_slotKey? (h : IsStored key) {other : String} (hkey : slotKey? key = some other) :
    IsCanonical other := by
  obtain ⟨hnull, -, -, rfl⟩ := slotKey?_eq_some_iff.mp hkey
  refine ⟨h.toList_domain ▸ Text.trimmed_trim _, fun hword => ?_⟩
  have hne := mt (isNull_of_domain_ne (domain_ne_of_isNull hnull)).mpr (Bool.eq_false_iff.mp hnull)
  rw [h.lower_trim, ← h.toList_domain, hword] at hne
  exact hne rfl

/-- A canonical key asks for a slot of its own, and no other stored key does. -/
theorem IsStored.slotKey?_eq_iff (h : IsStored key) : slotKey? key = some key ↔ IsCanonical key := by
  refine ⟨h.isCanonical_of_slotKey?, fun hcanonical => ?_⟩
  have htrim : trim key.toList = key.toList := Text.trim_eq_self_iff.mpr hcanonical.trimmed
  have hdomain : Origin.domain key = key := String.toList_inj.mp (h.toList_domain.trans htrim)
  have hnull : isNull key = false := by
    rw [Bool.eq_false_iff, ne_eq, isNull_of_domain_ne (hdomain.symm ▸ h.nonempty), h.lower_trim, htrim,
      String.toList_inj]
    exact hcanonical.named
  rw [slotKey?_eq_some_iff, hdomain]
  refine ⟨hnull, fun heq => h.ordinary (heq ▸ by decide), fun heq => h.ordinary (heq ▸ by decide), rfl⟩

/-! ### Entries and their keys -/

/-- The keys behind the reserved ones. -/
def ownKeys (r : Registry) : List String := r.keys.drop reservedKeys.length

theorem ownKeys_serveAll_empty (traceId : String) (requests : List Request) :
    ((empty traceId).serveAll requests).ownKeys =
      (requestedKeys (empty traceId) requests).eraseDups.take freeSlots := by
  rw [ownKeys, keys_serveAll_empty, List.drop_left]

theorem isStored_of_mem_ownKeys (traceId : String) (requests : List Request) :
    ∀ key ∈ ((empty traceId).serveAll requests).ownKeys, IsStored key := by
  intro key hkey
  rw [ownKeys_serveAll_empty] at hkey
  obtain ⟨url, hurl⟩ := exists_url_of_mem_requestedKeys (List.mem_eraseDups.mp (List.mem_of_mem_take hkey))
  exact isStored_of_slotKey? hurl

theorem mem_ownKeys (hslot : reservedKeys.length ≤ slot) (he : r.entries[slot]? = some e) : e.key ∈ r.ownKeys := by
  refine List.mem_of_getElem? (i := slot - reservedKeys.length) ?_
  rw [ownKeys, List.getElem?_drop, Nat.add_sub_cancel' hslot, keys, List.getElem?_map, he, Option.map_some]

theorem Slotted.slot_eq_of_label (h : r.Slotted) {slot' : Nat} {e' : Entry} (he : r.entries[slot]? = some e)
    (he' : r.entries[slot']? = some e') (hlabel : e.label = e'.label) (hpos : 0 < slot) : slot = slot' := by
  have hhas := h.has_label he hpos
  rw [hlabel, h.labels slot' e' he', Label.has_ofSlot] at hhas
  omega

/-- The look-up of a stored key finds its entry exactly if the key is canonical. -/
theorem Slotted.lookup_key_iff (h : r.Slotted) (ordinary : r.isPolicyOrigin e.key = false)
    (he : r.entries[slot]? = some e) (hpos : 0 < slot) (hstored : IsStored e.key) :
    r.lookup e.key = some e.label ↔ IsCanonical e.key := by
  constructor
  · intro hlookup
    cases hnull : isNull e.key with
    | true =>
      -- The answer for no origin is a label without a source.
      have hbottom : e.label = .bottom := by simpa [lookup, ordinary, hnull, eq_comm] using hlookup
      have hhas := h.has_label he hpos
      rw [hbottom] at hhas
      exact absurd hhas Label.not_has_bottom
    | false =>
      rw [lookup, ordinary, hnull] at hlookup
      obtain ⟨⟨slot', label⟩, howned, hlabel⟩ := Option.map_eq_some_iff.mp hlookup
      obtain rfl : label = e.label := hlabel
      have he' := getElem?_of_owned? howned
      obtain rfl := h.slot_eq_of_label he he' rfl hpos
      rw [he'] at he
      have hdomain : Origin.domain e.key = e.key := congrArg Entry.key (Option.some.inj he)
      refine ⟨?_, fun hword => ?_⟩
      · rw [← Text.trim_eq_self_iff, ← hstored.toList_domain, hdomain]
      · rw [hword] at hnull
        cases hnull
  · intro hcanonical
    obtain ⟨hnull, -, -, hdomain⟩ := slotKey?_eq_some_iff.mp (hstored.slotKey?_eq_iff.mpr hcanonical)
    have howned : r.owned? e.key = some (slot, e.label) := by
      rw [h.owned?_eq_some_iff, hdomain]
      exact he
    exact lookup_of_owned? ordinary hnull howned

/-! ### A new registry with the same keys -/

/-- The keys that a registry has given slots, as requests for slots in the same order. -/
def reseeding (r : Registry) : List Request := r.ownKeys.map (.put · false)

theorem requestedKeys_map_put (r : Registry) (keys : List String) :
    r.requestedKeys (keys.map (.put · false)) = keys.filterMap slotKey? := by
  induction keys generalizing r with
  | nil => rfl
  | cons key rest ih =>
    rw [List.map_cons, requestedKeys, ih, List.filterMap_cons]
    show (slotKey? key).toList ++ _ = _
    cases slotKey? key <;> rfl

theorem entries_eq_iff_ownKeys (traceId freshId : String) (requests requests' : List Request) :
    ((empty traceId).serveAll requests).entries = ((empty freshId).serveAll requests').entries ↔
      ((empty traceId).serveAll requests).ownKeys = ((empty freshId).serveAll requests').ownKeys := by
  have slotted := (slotted_empty traceId).serveAll requests
  have slotted' := (slotted_empty freshId).serveAll requests'
  refine ⟨fun h => by rw [ownKeys, keys, h, ownKeys, keys], fun h => ?_⟩
  rw [slotted.entries_eq, slotted'.entries_eq, keys_serveAll_empty, keys_serveAll_empty, ← ownKeys_serveAll_empty,
    ← ownKeys_serveAll_empty, h]

/-- The keys of a registry give a new one the same entries exactly if all of them are canonical. -/
theorem entries_reseeding_iff (traceId freshId : String) (requests : List Request) :
    ((empty freshId).serveAll ((empty traceId).serveAll requests).reseeding).entries =
        ((empty traceId).serveAll requests).entries ↔
      ∀ key ∈ ((empty traceId).serveAll requests).ownKeys, IsCanonical key := by
  have hown := ownKeys_serveAll_empty traceId requests
  have hstored := isStored_of_mem_ownKeys traceId requests
  rw [entries_eq_iff_ownKeys, ownKeys_serveAll_empty, reseeding, requestedKeys_map_put]
  generalize ((empty traceId).serveAll requests).ownKeys = own at hown hstored
  constructor
  · intro hsame key hkey
    rw [← hsame] at hkey
    obtain ⟨asking, hasking, hasked⟩ := List.mem_filterMap.mp (List.mem_eraseDups.mp (List.mem_of_mem_take hkey))
    exact (hstored asking hasking).isCanonical_of_slotKey? hasked
  · intro hcanonical
    have hasked : own.filterMap slotKey? = own :=
      (List.filterMap_congr fun key hkey => ((hstored key hkey).slotKey?_eq_iff).mpr (hcanonical key hkey)).trans
        List.filterMap_some
    have hnodup : own.Nodup := hown ▸ (FirstCome.nodup_eraseDups _).sublist (List.take_sublist _ _)
    have hlength : own.length ≤ freeSlots := hown ▸ List.length_take_le _ _
    rw [hasked, FirstCome.eraseDups_eq_self hnodup, List.take_of_length_le hlength]

/-- What becomes of keys that are looked up or registered again, in a registry `r` and in a new one that gets the
keys of `r`. -/
structure KeysAgain (freshId : String) (r : Registry) : Prop where
  /-- A second reduction to the domain only trims. -/
  domains : ∀ url, (domain (domain url)).toList = trim (domain url).toList
  fixed : ∀ url, domain (domain url) = domain url ↔ Trimmed (domain url).toList
  found : ∀ slot e, reservedKeys.length ≤ slot → r.entries[slot]? = some e →
    (r.lookup e.key = some e.label ↔ IsCanonical e.key)
  reseeded : ((empty freshId).serveAll r.reseeding).entries = r.entries ↔ ∀ key ∈ r.ownKeys, IsCanonical key

theorem keys_again (traceId freshId : String) (requests : List Request)
    (ordinary : ((empty traceId).serveAll requests).policyOrigins = []) :
    KeysAgain freshId ((empty traceId).serveAll requests) where
  domains := domain_domain
  fixed := fun _ => domain_domain_eq_iff
  found := by
    intro slot e hslot he
    have hordinary : ((empty traceId).serveAll requests).isPolicyOrigin e.key = false := by
      rw [isPolicyOrigin, ordinary, List.any_nil]
    have hpos : 0 < slot := Nat.lt_of_lt_of_le (by decide) hslot
    exact ((slotted_empty traceId).serveAll requests).lookup_key_iff hordinary he hpos
      (isStored_of_mem_ownKeys traceId requests e.key (mem_ownKeys hslot he))
  reseeded := entries_reseeding_iff traceId freshId requests

/-- Two hosts of which the second begins with white space. -/
theorem keys_again_hosts :
    let requests := [.put "https://Shop.example/a" false, .getLabel "http:// b"]
    ((empty "origin-registry").serveAll requests).policyOrigins = [] ∧
      KeysAgain "again" ((empty "origin-registry").serveAll requests) :=
  ⟨by decide +kernel, keys_again _ _ _ (by decide +kernel)⟩

/-- A host that begins with white space and the null word as a host get slots, and the look-ups of their keys do
not find these. -/
theorem stored_keys_lost :
    let r := (empty "origin-registry").serveAll [.put "http:// a" false, .put "http://null/b" false]
    domain (domain "http:// a") ≠ domain "http:// a" ∧ r.policyOrigins = [] ∧
      r.entries.drop 3 = [⟨" a", .ofSlot 3⟩, ⟨"null", .ofSlot 4⟩] ∧
      r.lookup " a" = none ∧ r.lookup "null" = some .bottom := by
  decide +kernel

end Registry
end InfoFlow.Origin

import InfoFlow.Proofs.FirstCome
import InfoFlow.Proofs.OriginLabels

/-! # Slots in the order of requests

Which origin gets which slot is decided by the order of requests alone. A request asks for a slot if it
names an origin whose host is not spelled like a reserved key, and a look-up does so only if the origin is
no policy origin at that moment. The free slots go to the hosts that were asked for first, each of them
once, and what has been given is never taken back. -/

namespace InfoFlow.Origin.Registry

variable {r : Registry} {url : String}

/-! ### Requests for a slot -/

/-- The key under which the origin of a URL gets a slot of its own. -/
def slotKey? (url : String) : Option String :=
  if isNull url = true ∨ domain url = policyKey ∨ domain url = secretKey then none else some (domain url)

/-- The key of the slot that a request asks for. -/
def requestedKey? (r : Registry) : Request → Option String
  | .put _ true | .drain => none
  | .put url false => slotKey? url
  | .getLabel url => if r.isPolicyOrigin url then none else slotKey? url

def requestedKeys (r : Registry) : List Request → List String
  | [] => []
  | request :: rest => (r.requestedKey? request).toList ++ (r.serve request).requestedKeys rest

/-- The URLs that requests register as those of policy origins. -/
def policyUrls (requests : List Request) : List String :=
  requests.filterMap fun
    | .put url true => some url
    | _ => none

def keys (r : Registry) : List String := r.entries.map Entry.key

/-- The keys after a request for the slot of a key. -/
def withKey (keys : List String) (key : String) : List String := FirstCome.grant capacity keys key

theorem slotKey?_eq_some_iff {key : String} :
    slotKey? url = some key ↔
      isNull url = false ∧ domain url ≠ policyKey ∧ domain url ≠ secretKey ∧ domain url = key := by
  unfold slotKey?
  split
  · rename_i hnone
    refine iff_of_false nofun fun h => ?_
    rcases hnone with hnull | hpolicy | hsecret
    · exact Bool.eq_false_iff.mp h.1 hnull
    · exact h.2.1 hpolicy
    · exact h.2.2.1 hsecret
  · rename_i hnot
    rw [not_or, not_or, Bool.not_eq_true] at hnot
    simp [hnot]

theorem slotKey?_ne_reserved {key : String} (h : slotKey? url = some key) : key ∉ reservedKeys := by
  obtain ⟨-, hpolicy, hsecret, rfl⟩ := slotKey?_eq_some_iff.mp h
  -- The key of the null slot has capital letters, and a host has none.
  have hnull : domain url ≠ "NULL" := domain_ne_of_isUpper (by decide)
  simp only [reservedKeys, List.mem_cons, List.not_mem_nil, or_false]
  rintro (heq | heq | heq)
  · exact hnull heq
  · exact hpolicy heq
  · exact hsecret heq

/-! ### What a request does to the keys -/

theorem mem_keys_of_owned? {slot : Nat} {label : Label} (h : r.owned? url = some (slot, label)) :
    domain url ∈ r.keys :=
  List.mem_map.mpr ⟨⟨domain url, label⟩, List.mem_of_getElem? (getElem?_of_owned? h), rfl⟩

theorem not_mem_keys_of_owned? (h : r.owned? url = none) : domain url ∉ r.keys := by
  intro hmem
  obtain ⟨e, he, hkey⟩ := List.mem_map.mp hmem
  exact owned?_eq_none_iff.mp h e he hkey

theorem Slotted.reservedKeys_subset (h : r.Slotted) : reservedKeys ⊆ r.keys := by
  intro key hkey
  have hreserved : key ∈ reservedEntries.map Entry.key := hkey
  obtain ⟨e, he, rfl⟩ := List.mem_map.mp hreserved
  exact List.mem_map.mpr ⟨e, h.reserved.subset he, rfl⟩

theorem Slotted.slotKey?_of_owned? (h : r.Slotted) (hnull : isNull url = false) (howned : r.owned? url = none) :
    slotKey? url = some (domain url) := by
  have hkey := not_mem_keys_of_owned? howned
  have hpolicy : domain url ≠ policyKey := fun heq =>
    hkey (h.reservedKeys_subset (heq ▸ by decide))
  have hsecret : domain url ≠ secretKey := fun heq =>
    hkey (h.reservedKeys_subset (heq ▸ by decide))
  simp [slotKey?, hnull, hpolicy, hsecret]

theorem Slotted.keys_putOrigin (h : r.Slotted) :
    (r.putOrigin url).2.keys = (slotKey? url).elim r.keys (withKey r.keys) := by
  cases hnull : isNull url with
  | true => simp [slotKey?, hnull, putOrigin_of_null hnull]
  | false =>
    cases howned : r.owned? url with
    | some found =>
      have hmem := mem_keys_of_owned? howned
      rw [putOrigin_of_owned hnull howned]
      cases hkey : slotKey? url with
      | none => rfl
      | some key =>
        obtain ⟨-, -, -, hdomain⟩ := slotKey?_eq_some_iff.mp hkey
        rw [Option.elim_some, ← hdomain, withKey, FirstCome.grant_of_mem hmem]
    | none =>
      have hmem := not_mem_keys_of_owned? howned
      have hlength : r.keys.length = r.size := List.length_map _
      rw [h.slotKey?_of_owned? hnull howned, Option.elim_some]
      cases hfull : r.isFull with
      | true =>
        have hsize : capacity ≤ r.size := isFull_iff.mp hfull
        rw [withKey, FirstCome.grant_of_full (hlength ▸ hsize), Registry.keys,
          (putOrigin_of_full hnull howned hfull).2, Registry.keys]
      | false =>
        have hsize : r.size < capacity := isFull_eq_false_iff.mp hfull
        rw [withKey, FirstCome.grant_of_new hmem (hlength ▸ hsize), Registry.keys,
          (putOrigin_of_room hnull howned hfull).2, List.map_append, Registry.keys]
        rfl

/-- The look-up of an ordinary origin adds the entry that its registration would add. -/
theorem entries_getLabel (ordinary : r.isPolicyOrigin url = false) :
    (r.getLabel url).2.entries = (r.putOrigin url).2.entries := by
  cases hnull : isNull url with
  | true =>
    have hlookup : r.lookup url = some .bottom := by simp [lookup, ordinary, hnull]
    rw [getLabel_of_lookup hlookup, putOrigin_of_null hnull]
  | false =>
    cases howned : r.owned? url with
    | some found =>
      rw [getLabel_of_lookup (lookup_of_owned? ordinary hnull howned), putOrigin_of_owned hnull howned]
    | none =>
      have hlookup : r.lookup url = none :=
        lookup_eq_none_iff.mpr ⟨ordinary, hnull, owned?_eq_none_iff.mp howned⟩
      cases hfull : r.isFull with
      | true => rw [getLabel_of_full hlookup hfull, (putOrigin_of_full hnull howned hfull).2]
      | false => rw [(getLabel_of_room hlookup hfull).2, (putOrigin_of_room hnull howned hfull).2]

theorem Slotted.keys_serve (h : r.Slotted) (request : Request) :
    (r.serve request).keys = (r.requestedKey? request).elim r.keys (withKey r.keys) := by
  cases request with
  | put url asPolicy =>
    cases asPolicy with
    | true =>
      have hentries : (r.serve (.put url true)).entries = r.entries := entries_putPolicy
      rw [Registry.keys, hentries]
      rfl
    | false => exact h.keys_putOrigin
  | getLabel url =>
    cases hpolicy : r.isPolicyOrigin url with
    | true =>
      have hserve : r.serve (.getLabel url) = r :=
        congrArg Prod.snd (getLabel_of_lookup (lookup_of_isPolicyOrigin hpolicy))
      rw [hserve, requestedKey?, if_pos hpolicy]
      rfl
    | false =>
      have hentries : (r.serve (.getLabel url)).entries = (r.putOrigin url).2.entries := entries_getLabel hpolicy
      rw [requestedKey?, hpolicy, if_neg Bool.false_ne_true, ← h.keys_putOrigin, Registry.keys, hentries,
        Registry.keys]
  | drain => rfl

theorem Slotted.keys_serveAll (h : r.Slotted) (requests : List Request) :
    (r.serveAll requests).keys = (r.requestedKeys requests).foldl withKey r.keys := by
  induction requests generalizing r with
  | nil => rfl
  | cons request rest ih =>
    rw [serveAll_cons, ih (h.serve request), requestedKeys, List.foldl_append, h.keys_serve request]
    cases r.requestedKey? request <;> rfl

/-- Slots are asked for by URLs. -/
theorem exists_url_of_mem_requestedKeys {requests : List Request} {key : String} (h : key ∈ r.requestedKeys requests) :
    ∃ url, slotKey? url = some key := by
  induction requests generalizing r with
  | nil => cases h
  | cons request rest ih =>
    rcases List.mem_append.mp h with hfirst | hrest
    · rw [Option.mem_toList] at hfirst
      unfold requestedKey? at hfirst
      split at hfirst
      · cases hfirst
      · cases hfirst
      · exact ⟨_, hfirst⟩
      · split at hfirst
        · cases hfirst
        · exact ⟨_, hfirst⟩
    · exact ih hrest

theorem requestedKeys_ne_reserved {requests : List Request} :
    ∀ key ∈ r.requestedKeys requests, key ∉ reservedKeys := by
  intro key hkey
  obtain ⟨url, hurl⟩ := exists_url_of_mem_requestedKeys hkey
  exact slotKey?_ne_reserved hurl

/-- A table with the reserved keys takes the first distinct keys for which it has room. -/
theorem foldl_withKey {keys : List String} (hkeys : ∀ key ∈ keys, key ∉ reservedKeys) :
    keys.foldl withKey reservedKeys = reservedKeys ++ keys.eraseDups.take freeSlots :=
  FirstCome.foldl_grant (show reservedKeys.length ≤ capacity by decide) hkeys

theorem keys_serveAll_empty (traceId : String) (requests : List Request) :
    ((empty traceId).serveAll requests).keys =
      reservedKeys ++ (requestedKeys (empty traceId) requests).eraseDups.take freeSlots := by
  rw [(slotted_empty traceId).keys_serveAll requests]
  exact foldl_withKey requestedKeys_ne_reserved

/-! ### Policy origins -/

theorem policyOrigins_serveAll_empty (traceId : String) (requests : List Request) :
    ((empty traceId).serveAll requests).policyOrigins = (policyUrls requests).eraseDups := by
  induction requests using List.reverseRecOn with
  | nil => rfl
  | append_singleton rest request ih =>
    have hserve : (empty traceId).serveAll (rest ++ [request]) = ((empty traceId).serveAll rest).serve request :=
      serveAll_append
    have kept (h : policyUrls [request] = []) :
        (policyUrls (rest ++ [request])).eraseDups = ((empty traceId).serveAll rest).policyOrigins := by
      rw [policyUrls, List.filterMap_append, ← policyUrls, ← policyUrls, h, List.append_nil, ih]
    rw [hserve]
    cases request with
    | put url asPolicy =>
      cases asPolicy with
      | true =>
        have hurls : policyUrls (rest ++ [.put url true]) = policyUrls rest ++ [url] := List.filterMap_append
        have hlisted : url ∈ ((empty traceId).serveAll rest).policyOrigins ↔ url ∈ policyUrls rest := by
          rw [ih, List.mem_eraseDups]
        rw [hurls, FirstCome.eraseDups_concat]
        show (((empty traceId).serveAll rest).putPolicy url).2.policyOrigins = _
        unfold putPolicy
        split
        · rename_i hcontains
          rw [if_pos (hlisted.mp (List.contains_iff_mem.mp hcontains)), ih]
        · rename_i hcontains
          rw [if_neg fun hmem => hcontains (List.contains_iff_mem.mpr (hlisted.mpr hmem)), ← ih]
      | false => exact policyOrigins_putOrigin.trans (kept rfl).symm
    | getLabel url => exact policyOrigins_getLabel.trans (kept rfl).symm
    | drain => exact (kept rfl).symm

/-! ### The whole registry -/

theorem Slotted.entries_eq (h : r.Slotted) : r.entries = r.keys.mapIdx fun slot key => ⟨key, .ofSlot slot⟩ := by
  refine List.ext_getElem? fun slot => ?_
  rw [List.getElem?_mapIdx, Registry.keys, List.getElem?_map]
  cases he : r.entries[slot]? with
  | none => rfl
  | some e =>
    have hlabel := h.labels slot e he
    rw [Option.map_some, Option.map_some, ← hlabel]

theorem Slotted.pairwise_disjoint (h : r.Slotted) : r.entries.Pairwise fun e e' => e.label.Disjoint e'.label := by
  refine List.pairwise_iff_getElem.mpr fun slot slot' hslot hslot' hlt => ?_
  rw [h.labels slot _ (List.getElem?_eq_getElem hslot), h.labels slot' _ (List.getElem?_eq_getElem hslot')]
  exact Label.disjoint_ofSlot (Nat.ne_of_lt hlt)

/-- An entry behind the reserved ones has a single source, which is neither that of policy nor that of
secrets. -/
theorem Slotted.single_source (h : r.Slotted) {e : Entry} (he : e ∈ r.entries.drop reservedKeys.length) :
    ∃ source, Label.policySource < source ∧ Label.secretSource < source ∧
      ∀ other, e.label.Has other ↔ other = source := by
  obtain ⟨i, hi⟩ := List.mem_iff_getElem?.mp he
  rw [List.getElem?_drop] at hi
  have hslot : reservedKeys.length + i < r.size := (List.getElem?_eq_some_iff.mp hi).1
  have hsize := h.size
  simp only [reservedKeys, capacity, List.length_cons, List.length_nil] at hi hslot hsize
  refine ⟨i + 2, Nat.zero_lt_succ _, Nat.succ_lt_succ (Nat.zero_lt_succ _), fun other => ?_⟩
  rw [h.labels _ e hi, Label.has_ofSlot]
  omega

/-- A registry after requests: who has which slot, and who is a policy origin. -/
structure FilledInOrder (traceId : String) (requests : List Request) (r : Registry) : Prop where
  /-- The reserved keys come first, then the hosts that were asked for first; each has its slot's label. -/
  entries : r.entries = (reservedKeys ++ (requestedKeys (empty traceId) requests).eraseDups.take freeSlots).mapIdx
    fun slot key => ⟨key, .ofSlot slot⟩
  policyOrigins : r.policyOrigins = (policyUrls requests).eraseDups
  size : reservedKeys.length ≤ r.size ∧ r.size ≤ capacity
  distinct : r.keys.Nodup
  disjoint : r.entries.Pairwise fun e e' => e.label.Disjoint e'.label
  single : ∀ e ∈ r.entries.drop reservedKeys.length, ∃ source, Label.policySource < source ∧
    Label.secretSource < source ∧ ∀ other, e.label.Has other ↔ other = source
  /-- What the registry held before is what it holds first. -/
  kept : ∀ before after, requests = before ++ after →
    ((empty traceId).serveAll before).entries <+: r.entries ∧
      ((empty traceId).serveAll before).policyOrigins <+: r.policyOrigins

/-- The order of requests determines the slots of the registry. -/
theorem filled_in_order (traceId : String) (requests : List Request) :
    FilledInOrder traceId requests ((empty traceId).serveAll requests) := by
  have slotted := (slotted_empty traceId).serveAll requests
  have hkeys := keys_serveAll_empty traceId requests
  refine ⟨hkeys ▸ slotted.entries_eq, policyOrigins_serveAll_empty traceId requests,
    ⟨slotted.reserved.length_le, slotted.size⟩, slotted.keys, slotted.pairwise_disjoint,
    fun e he => slotted.single_source he, ?_⟩
  rintro before after rfl
  refine ⟨?_, ?_⟩
  · rw [serveAll_append]
    exact entries_prefix_serveAll _ after
  · rw [policyOrigins_serveAll_empty, policyOrigins_serveAll_empty, policyUrls, policyUrls,
      List.filterMap_append, List.eraseDups_append]
    exact List.prefix_append _ _

end InfoFlow.Origin.Registry

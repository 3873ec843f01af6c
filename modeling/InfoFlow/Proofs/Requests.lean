import InfoFlow.Proofs.TableEvents

/-! # Requests to the registry

Whatever happens to a registry is a request: a registration, the look-up of a label, which registers an
origin on first sight, or the collection of its events. A request adds at most one entry, in the next
slot and for a key that has none. So an origin that is known once stays known. -/

namespace InfoFlow.Origin.Registry

inductive Request where
  | put (url : String) (asPolicy : Bool)
  | getLabel (url : String)
  | drain
deriving DecidableEq

/-- The registry after a request. -/
def serve (r : Registry) : Request → Registry
  | .put url asPolicy => (r.put url asPolicy).2
  | .getLabel url => (r.getLabel url).2
  | .drain => r.drain.2

def serveAll (r : Registry) (requests : List Request) : Registry := requests.foldl serve r

variable {r : Registry} {key url : String}

theorem serveAll_cons {request : Request} {rest : List Request} :
    r.serveAll (request :: rest) = (r.serve request).serveAll rest := rfl

theorem serveAll_append {before after : List Request} :
    r.serveAll (before ++ after) = (r.serveAll before).serveAll after :=
  List.foldl_append

theorem serveAll_of_kept {P : Registry → Prop} {requests : List Request} (start : P r)
    (kept : ∀ r, P r → ∀ request, P (r.serve request)) : P (r.serveAll requests) := by
  induction requests generalizing r with
  | nil => exact start
  | cons request rest ih => exact ih (kept r start request)

theorem isFull_iff : r.isFull = true ↔ capacity ≤ r.size := decide_eq_true_iff

theorem isFull_eq_false_iff : r.isFull = false ↔ r.size < capacity := by
  rw [isFull, decide_eq_false_iff_not, Nat.not_le]

/-! ### Who owns a slot -/

theorem newestSlot?_eq_none_iff {start : Nat} {entries : List Entry} :
    newestSlot? key start entries = none ↔ ∀ e ∈ entries, e.key ≠ key := by
  induction entries generalizing start with
  | nil => simp [newestSlot?]
  | cons e rest ih => simp [newestSlot?, Option.or_eq_none_iff, ih, and_comm]

theorem getElem?_of_newestSlot? {start slot : Nat} {entries : List Entry}
    (h : newestSlot? key start entries = some slot) :
    start ≤ slot ∧ ∃ label, entries[slot - start]? = some ⟨key, label⟩ := by
  induction entries generalizing start with
  | nil => cases h
  | cons e rest ih =>
    rw [newestSlot?, Option.or_eq_some_iff] at h
    rcases h with h | ⟨-, h⟩
    · obtain ⟨hle, label, hlabel⟩ := ih h
      refine ⟨Nat.le_of_succ_le hle, label, ?_⟩
      rw [show slot - start = slot - (start + 1) + 1 by omega, List.getElem?_cons_succ]
      exact hlabel
    · split at h
      · rename_i hkey
        obtain rfl := Option.some.inj h
        refine ⟨Nat.le_refl _, e.label, ?_⟩
        rw [Nat.sub_self, List.getElem?_cons_zero, ← hkey]
      · cases h

theorem owned?_eq_none_iff : r.owned? url = none ↔ ∀ e ∈ r.entries, e.key ≠ domain url := by
  have hnone : r.slot? url = none ↔ ∀ e ∈ r.entries, e.key ≠ domain url := newestSlot?_eq_none_iff
  rw [← hnone]
  refine ⟨fun h => ?_, fun h => ?_⟩
  · cases hslot : r.slot? url with
    | none => rfl
    | some slot =>
      obtain ⟨-, label, hlabel⟩ := getElem?_of_newestSlot? hslot
      rw [Nat.sub_zero] at hlabel
      simp [owned?, hslot, hlabel] at h
  · simp [owned?, h]

theorem getElem?_of_owned? {slot : Nat} {label : Label} (h : r.owned? url = some (slot, label)) :
    r.entries[slot]? = some ⟨domain url, label⟩ := by
  obtain ⟨found, hfound, h⟩ := Option.bind_eq_some_iff.mp h
  obtain ⟨e, he, h⟩ := Option.map_eq_some_iff.mp h
  obtain ⟨rfl, rfl⟩ := Prod.mk.inj h
  obtain ⟨-, label, hlabel⟩ := getElem?_of_newestSlot? hfound
  rw [Nat.sub_zero] at hlabel
  rw [he] at hlabel ⊢
  rw [Option.some.inj hlabel]

theorem lookup_eq_none_iff :
    r.lookup url = none ↔
      r.isPolicyOrigin url = false ∧ isNull url = false ∧ ∀ e ∈ r.entries, e.key ≠ domain url := by
  rw [← owned?_eq_none_iff]
  unfold lookup
  cases r.isPolicyOrigin url <;> cases isNull url <;> simp

theorem newestSlot?_append_self {start : Nat} {entries : List Entry} {label : Label} :
    newestSlot? key start (entries ++ [⟨key, label⟩]) = some (start + entries.length) := by
  induction entries generalizing start with
  | nil => simp [newestSlot?]
  | cons e rest ih =>
    rw [List.cons_append, newestSlot?, ih, Option.some_or, List.length_cons]
    congr 1
    omega

theorem owned?_of_entries {r' : Registry} {label : Label} (h : r'.entries = r.entries ++ [⟨domain url, label⟩]) :
    r'.owned? url = some (r.size, label) := by
  have hslot : r'.slot? url = some r.size := by
    rw [slot?, h, newestSlot?_append_self, Nat.zero_add, size]
  rw [owned?, hslot, Option.bind_some, h, size, List.getElem?_concat_length, Option.map_some]

theorem lookup_of_isPolicyOrigin (h : r.isPolicyOrigin url = true) : r.lookup url = some .policy := by
  rw [lookup, if_pos h]

/-- The label of an origin with a slot. -/
theorem lookup_of_owned? (ordinary : r.isPolicyOrigin url = false) (hnull : isNull url = false) {slot : Nat}
    {label : Label} (h : r.owned? url = some (slot, label)) : r.lookup url = some label := by
  rw [lookup, ordinary, hnull, h]
  rfl

/-! ### Answers -/

theorem getLabel_of_room (h : r.lookup url = none) (room : r.isFull = false) :
    (r.getLabel url).1 = .ofSlot r.size ∧
      (r.getLabel url).2.entries = r.entries ++ [⟨domain url, .ofSlot r.size⟩] := by
  simp [getLabel_of_unknown h, firstLabel, append, room]

/-- What a full registry records of an origin that it has no slot for. -/
def refusals (r : Registry) (url : String) : List Event :=
  [{ r.log.event .originRegistry .originRegistered .dropped with
      errorCode := some registryFullCode, subject := some (domain url) },
    { r.log.event .originRegistry .originRegistered .fallback with
      errorCode := some registryFullCode, subject := some url, label := some .policy }]

theorem getLabel_of_full (h : r.lookup url = none) (full : r.isFull = true) :
    r.getLabel url = (.policy, { r with log := r.log.append (r.refusals url) }) := by
  simp [getLabel_of_unknown h, firstLabel, append, full, refusals, EventLog.push, EventLog.append, EventLog.event]

theorem putOrigin_of_null (h : isNull url = true) : r.putOrigin url = (.alreadyRegistered 0 .bottom, r) := by
  rw [putOrigin, if_pos h]

theorem putOrigin_of_owned {slot : Nat} {label : Label} (hnull : isNull url = false)
    (h : r.owned? url = some (slot, label)) :
    r.putOrigin url = (.alreadyRegistered slot label, r) := by
  simp [putOrigin, hnull, h]

theorem putOrigin_of_full (hnull : isNull url = false) (h : r.owned? url = none) (full : r.isFull = true) :
    (r.putOrigin url).1 = .dropped ∧ (r.putOrigin url).2.entries = r.entries := by
  simp [putOrigin, hnull, h, append, full]

theorem putOrigin_of_room (hnull : isNull url = false) (h : r.owned? url = none) (room : r.isFull = false) :
    (r.putOrigin url).1 = .registered r.size (.ofSlot r.size) ∧
      (r.putOrigin url).2.entries = r.entries ++ [⟨domain url, .ofSlot r.size⟩] := by
  simp [putOrigin, hnull, h, append, room]

/-! ### What a request changes -/

theorem entries_append :
    (r.append key).2.entries = if r.isFull then r.entries else r.entries ++ [⟨key, .ofSlot r.size⟩] := by
  unfold append
  split <;> rfl

/-- The registry has room, and the next slot goes to a key that had none. -/
def Adds (r r' : Registry) : Prop :=
  ∃ key, (∀ e ∈ r.entries, e.key ≠ key) ∧ r.size < capacity ∧ r'.entries = r.entries ++ [⟨key, .ofSlot r.size⟩]

theorem entries_eq_or_adds_append (h : ∀ e ∈ r.entries, e.key ≠ key) :
    (r.append key).2.entries = r.entries ∨ r.Adds (r.append key).2 := by
  rw [entries_append]
  cases hfull : r.isFull with
  | true => exact Or.inl rfl
  | false =>
    have hroom : r.size < capacity := isFull_eq_false_iff.mp hfull
    exact Or.inr ⟨key, h, hroom, by rw [entries_append, hfull]; rfl⟩

theorem entries_putPolicy : (r.putPolicy url).2.entries = r.entries := by
  unfold putPolicy
  split <;> rfl

theorem entries_eq_or_adds_putOrigin : (r.putOrigin url).2.entries = r.entries ∨ r.Adds (r.putOrigin url).2 := by
  unfold putOrigin
  split
  · exact Or.inl rfl
  · split
    · exact Or.inl rfl
    · rename_i howned
      have happend := entries_eq_or_adds_append (owned?_eq_none_iff.mp howned)
      split <;> simp_all

theorem entries_eq_or_adds_getLabel : (r.getLabel url).2.entries = r.entries ∨ r.Adds (r.getLabel url).2 := by
  cases hlookup : r.lookup url with
  | some label =>
    rw [getLabel_of_lookup hlookup]
    exact Or.inl rfl
  | none =>
    have happend := entries_eq_or_adds_append (lookup_eq_none_iff.mp hlookup).2.2
    rw [getLabel_of_unknown hlookup, firstLabel]
    split <;> simp_all [Adds]

theorem entries_eq_or_adds (r : Registry) (request : Request) :
    (r.serve request).entries = r.entries ∨ r.Adds (r.serve request) := by
  cases request with
  | put url asPolicy =>
    cases asPolicy with
    | true => exact Or.inl entries_putPolicy
    | false => exact entries_eq_or_adds_putOrigin
  | getLabel url => exact entries_eq_or_adds_getLabel
  | drain => exact Or.inl rfl

theorem entries_prefix_serve (r : Registry) (request : Request) : r.entries <+: (r.serve request).entries := by
  rcases entries_eq_or_adds r request with h | ⟨key, -, -, h⟩
  · exact ⟨[], by rw [h, List.append_nil]⟩
  · exact ⟨_, h.symm⟩

theorem policyOrigins_serve (r : Registry) (request : Request) :
    r.policyOrigins ⊆ (r.serve request).policyOrigins := by
  cases request with
  | put url asPolicy => exact policyOrigins_put
  | getLabel url =>
    show r.policyOrigins ⊆ (r.getLabel url).2.policyOrigins
    rw [policyOrigins_getLabel]
    exact List.Subset.refl _
  | drain => exact List.Subset.refl _

/-! ### Known origins -/

/-- A look-up of the URL will add no entry: it has a label, or there is no room. -/
def Knows (r : Registry) (url : String) : Prop := r.lookup url ≠ none ∨ r.isFull = true

theorem lookup_ne_none_mono {r' : Registry} (h : r.lookup url ≠ none) (hentries : r.entries <+: r'.entries)
    (horigins : r.policyOrigins ⊆ r'.policyOrigins) : r'.lookup url ≠ none := by
  intro hnone
  obtain ⟨ordinary, hnull, hkeys⟩ := lookup_eq_none_iff.mp hnone
  exact h (lookup_eq_none_iff.mpr
    ⟨ordinary_of_subset horigins ordinary, hnull, fun e he => hkeys e (hentries.subset he)⟩)

theorem Knows.mono {r' : Registry} (h : r.Knows url) (hentries : r.entries <+: r'.entries)
    (horigins : r.policyOrigins ⊆ r'.policyOrigins) : r'.Knows url := by
  rcases h with hlookup | hfull
  · exact Or.inl (lookup_ne_none_mono hlookup hentries horigins)
  · exact Or.inr (isFull_iff.mpr (Nat.le_trans (isFull_iff.mp hfull) hentries.length_le))

theorem Knows.serve (h : r.Knows url) (request : Request) : (r.serve request).Knows url :=
  h.mono (entries_prefix_serve r request) (policyOrigins_serve r request)

theorem Knows.serveAll (h : r.Knows url) (requests : List Request) : (r.serveAll requests).Knows url :=
  serveAll_of_kept (P := (Knows · url)) h fun _ hr request => hr.serve request

theorem knows_of_isPolicyOrigin (h : r.isPolicyOrigin url = true) : r.Knows url := by
  refine Or.inl ?_
  simp [lookup, h]

theorem knows_getLabel (r : Registry) (url : String) : (r.getLabel url).2.Knows url := by
  by_cases hlookup : r.lookup url = none
  · cases hfull : r.isFull with
    | true => exact Knows.serve (Or.inr hfull) (.getLabel url)
    | false =>
      refine Or.inl fun hnone => ?_
      have hkeys := (lookup_eq_none_iff.mp hnone).2.2
      rw [(getLabel_of_room hlookup hfull).2] at hkeys
      exact hkeys ⟨domain url, .ofSlot r.size⟩ (by simp) rfl
  · exact Knows.serve (Or.inl hlookup) (.getLabel url)

/-- The look-up of a known URL changes nothing but the log. -/
theorem getLabel_of_knows (h : r.Knows url) :
    ∃ new, (r.getLabel url).2 = { r with log := r.log.append new } := by
  cases hlookup : r.lookup url with
  | some label =>
    rw [getLabel_of_lookup hlookup]
    exact ⟨[], by rw [EventLog.append_nil]⟩
  | none =>
    have hfull : r.isFull = true := h.resolve_left (not_not_intro hlookup)
    rw [getLabel_of_full hlookup hfull]
    exact ⟨_, rfl⟩

end InfoFlow.Origin.Registry

import InfoFlow.Proofs.CapabilityRuns
import InfoFlow.Proofs.OriginLabels

/-! # Seeding

A context starts with what its configuration lists. A configuration that is accepted lists no more origins
than there are free slots, so each of them is known from the start. How many capabilities it lists is not
checked: the first distinct names are recorded, and for the other ones the log reports that the table is
full. -/

namespace InfoFlow

/-! ### Accepted configurations -/

namespace Config

variable {config : Config}

/-- The names of the listed capabilities. -/
def names (config : Config) : List String := config.capabilities.map Capability.name

/-- The names that there is room for behind the null record. -/
def firstNames (config : Config) : List String := config.names.eraseDups.take (CapabilityTable.capacity - 1)

theorem validate_eq_ok_iff :
    config.validate = .ok () ↔
      config.origins.length ≤ Origin.Registry.freeSlots ∧ ∀ entry ∈ config.capabilities, entry.name ≠ "" := by
  have hnamed : config.capabilities.findIdx? (·.name == "") = none ↔
      ∀ entry ∈ config.capabilities, entry.name ≠ "" := by
    simp [List.findIdx?_eq_none_iff]
  rw [← hnamed]
  unfold validate
  split
  · rename_i hmany
    exact iff_of_false nofun fun h => Nat.not_le_of_lt hmany h.1
  · rename_i hfew
    split <;> simp_all

theorem forall_mem_firstNames_iff :
    (∀ entry ∈ config.capabilities, entry.name ∈ config.firstNames) ↔
      config.names.eraseDups.length < CapabilityTable.capacity := by
  have hfirst : (∀ name ∈ config.names, name ∈ config.firstNames) ↔
      config.names.eraseDups.length ≤ CapabilityTable.capacity - 1 :=
    FirstCome.forall_mem_take_eraseDups_iff
  rw [← Nat.le_sub_one_iff_lt (show 0 < CapabilityTable.capacity by decide), ← hfirst]
  exact List.forall_mem_map.symm

end Config

namespace EventLog

variable {log : EventLog}

theorem diagnostics_eq_nil_iff : log.diagnostics = [] ↔ ∀ e ∈ log.events, e.errorCode = none := by
  simp [diagnostics, Event.isDiagnostic, List.filter_eq_nil_iff]

end EventLog

/-! ### A registry with room for all requests -/

namespace Origin.Registry

variable {r : Registry} {url : String} {requests : List Request}

/-- A request that can take a slot. -/
def Request.asksSlot : Request → Bool
  | .put _ asPolicy => !asPolicy
  | .getLabel _ => true
  | .drain => false

theorem size_serve_le (r : Registry) (request : Request) :
    (r.serve request).size ≤ r.size + if request.asksSlot then 1 else 0 := by
  cases hasks : request.asksSlot with
  | true =>
    rcases entries_eq_or_adds r request with h | ⟨key, -, -, h⟩ <;> simp [size, h]
  | false =>
    have hentries : (r.serve request).entries = r.entries := by
      cases request with
      | put url asPolicy =>
        obtain rfl : asPolicy = true := by simpa [Request.asksSlot] using hasks
        exact entries_putPolicy
      | getLabel url => cases hasks
      | drain => rfl
    simp [size, hentries]

theorem size_serveAll_le (r : Registry) (requests : List Request) :
    (r.serveAll requests).size ≤ r.size + requests.countP Request.asksSlot := by
  induction requests generalizing r with
  | nil => exact Nat.le_refl _
  | cons request rest ih =>
    have hstep := size_serve_le r request
    have hrest := ih (r.serve request)
    rw [serveAll_cons, List.countP_cons]
    omega

theorem diagnostics_append (room : r.size < capacity) (key : String) :
    (r.append key).2.log.diagnostics = r.log.diagnostics := by
  simp [append, isFull_eq_false_iff.mpr room, EventLog.diagnostics_push, EventLog.event, Event.isDiagnostic]

theorem diagnostics_put {asPolicy : Bool} (room : asPolicy = false → r.size < capacity) :
    (r.put url asPolicy).2.log.diagnostics = r.log.diagnostics := by
  cases asPolicy with
  | true =>
    show (r.putPolicy url).2.log.diagnostics = _
    unfold putPolicy
    split
    · rfl
    · simp [EventLog.diagnostics_push, EventLog.event, Event.isDiagnostic]
  | false =>
    have happend := diagnostics_append (room rfl) (domain url)
    show (r.putOrigin url).2.log.diagnostics = _
    unfold putOrigin
    split
    · rfl
    · split
      · rfl
      · split <;> simp_all

theorem diagnostics_getLabel (room : r.size < capacity) :
    (r.getLabel url).2.log.diagnostics = r.log.diagnostics := by
  have happend := diagnostics_append room (domain url)
  have hroom : (r.append (domain url)).1 ≠ none := by simp [append, isFull_eq_false_iff.mpr room]
  cases hlookup : r.lookup url with
  | some label => rw [getLabel_of_lookup hlookup]
  | none =>
    rw [getLabel_of_unknown hlookup, firstLabel]
    split <;> simp_all

theorem lookup_putOrigin_of_room (room : r.size < capacity) : (r.putOrigin url).2.lookup url ≠ none := by
  intro hnone
  obtain ⟨-, hnull, hkeys⟩ := lookup_eq_none_iff.mp hnone
  cases howned : r.owned? url with
  | some found =>
    rw [putOrigin_of_owned hnull howned] at hkeys
    rw [owned?_eq_none_iff.mpr hkeys] at howned
    cases howned
  | none =>
    rw [(putOrigin_of_room hnull howned (isFull_eq_false_iff.mpr room)).2] at hkeys
    exact hkeys _ (List.mem_append_right _ (List.mem_singleton_self _)) rfl

theorem lookup_put_of_room {asPolicy : Bool} (room : asPolicy = false → r.size < capacity) :
    (r.put url asPolicy).2.lookup url ≠ none := by
  cases asPolicy with
  | true =>
    have hlookup : (r.put url true).2.lookup url = some .policy :=
      lookup_of_isPolicyOrigin (isPolicyOrigin_putPolicy r url)
    simp [hlookup]
  | false => exact lookup_putOrigin_of_room (room rfl)

/-- With room for all requests none is refused. -/
theorem diagnostics_serveAll (room : r.size + requests.countP Request.asksSlot ≤ capacity)
    (h : r.log.diagnostics = []) : (r.serveAll requests).log.diagnostics = [] := by
  induction requests generalizing r with
  | nil => exact h
  | cons request rest ih =>
    rw [List.countP_cons] at room
    have hasks : request.asksSlot = true → r.size < capacity := fun hasks => by
      rw [if_pos hasks] at room
      omega
    have hserve : (r.serve request).log.diagnostics = [] := by
      cases request with
      | put url asPolicy => exact (diagnostics_put fun hordinary => hasks (by rw [hordinary]; rfl)).trans h
      | getLabel url => exact (diagnostics_getLabel (hasks rfl)).trans h
      | drain => rfl
    have hsize := size_serve_le r request
    exact ih (by omega) hserve

/-- With room for all requests every URL that is registered is known. -/
theorem lookup_serveAll_of_mem {asPolicy : Bool} (room : r.size + requests.countP Request.asksSlot ≤ capacity)
    (h : .put url asPolicy ∈ requests) : (r.serveAll requests).lookup url ≠ none := by
  obtain ⟨before, after, rfl⟩ := List.append_of_mem h
  have hbefore := size_serveAll_le r before
  rw [List.countP_append, List.countP_cons] at room
  rw [serveAll_append, serveAll_cons]
  refine lookup_ne_none_mono (lookup_put_of_room fun hordinary => ?_) (entries_prefix_serveAll _ after)
    (policyOrigins_serveAll _ after)
  rw [hordinary, if_pos (show (Request.put url false).asksSlot = true from rfl)] at room
  omega

end Origin.Registry

/-! ### The table of capabilities -/

namespace CapabilityTable

open FirstCome

variable {t : CapabilityTable} {entry : Capability} {entries : List Capability}

/-- The table after records were put into it one after the other. -/
def putAll (t : CapabilityTable) (entries : List Capability) : CapabilityTable :=
  entries.foldl (fun t entry => (t.put entry).2) t

theorem putAll_cons : t.putAll (entry :: entries) = (t.put entry).2.putAll entries := rfl

/-- What putting several named records does: the log reports those whose names are missing in the end. -/
structure PutsAll (t : CapabilityTable) (entries : List Capability) (t' : CapabilityTable) : Prop where
  keys : t'.keys = (entries.map Capability.name).foldl (grant capacity) t.keys
  diagnostics : t'.log.diagnostics =
    t.log.diagnostics ++ (entries.filter (·.name ∉ t'.keys)).map (refusal t.log.traceId ·.name)

theorem putsAll_putAll (hnull : [""] <+: t.keys) (hnamed : ∀ entry ∈ entries, entry.name ≠ "") :
    t.PutsAll entries (t.putAll entries) := by
  induction entries generalizing t with
  | nil => exact ⟨rfl, (List.append_nil _).symm⟩
  | cons entry rest ih =>
    have hput := puts_put hnull (hnamed entry List.mem_cons_self)
    have hnull' : [""] <+: (t.put entry).2.keys := by
      rw [hput.keys]
      exact hnull.trans prefix_grant
    have hrest := ih hnull' fun other hother => hnamed other (List.mem_cons_of_mem _ hother)
    rw [putAll_cons]
    have hkeys := hrest.keys
    rw [hput.keys] at hkeys
    refine ⟨hkeys, ?_⟩
    -- Later records do not change whether the first name has a record.
    have hsettled : entry.name ∈ ((t.put entry).2.putAll rest).keys ↔ entry.name ∈ (t.put entry).2.keys := by
      rw [hkeys, hput.keys]
      exact mem_foldl_grant_iff
    rw [hrest.diagnostics, hput.diagnostics, hput.traceId, List.append_assoc, List.filter_cons]
    by_cases hmem : entry.name ∈ (t.put entry).2.keys
    · simp [hsettled, hmem]
    · simp [hsettled, hmem]

theorem putAll_eq_serveAll : t.putAll entries = t.serveAll (entries.map .put) := by
  rw [putAll, serveAll, List.foldl_map]
  rfl

theorem records_map_put (hnamed : ∀ entry ∈ entries, entry.name ≠ "") : records (entries.map .put) = entries := by
  rw [records, List.filterMap_map]
  exact (List.filterMap_congr fun entry hentry => if_neg (hnamed entry hentry)).trans List.filterMap_some

end CapabilityTable

/-! ### A new context -/

namespace Context

variable {config : Config}

theorem log_ofConfig (config : Config) :
    (ofConfig config).log.events =
      ((Origin.Registry.empty config.traceId).serveAll (seeding config)).log.events ++
        ((CapabilityTable.empty config.traceId).putAll config.capabilities).log.events := by
  simp only [Origin.Registry.serveAll, seeding, List.foldl_append, List.foldl_map]
  rfl

/-- What a context holds of the configuration from which it has just been made. -/
structure Seeded (config : Config) (c : Context) : Prop where
  origins : ∀ url ∈ config.policyOrigins ++ config.origins, c.registry.lookup url ≠ none
  /-- The first distinct names stand behind the null record, in the order of the list. -/
  indices : ∀ name, c.table.index? name = (config.firstNames.idxOf? name).map (· + 1)
  /-- The log reports the listed capabilities that are missing, and nothing else is refused. -/
  refused : c.log.diagnostics =
    (config.capabilities.filter (·.name ∉ config.firstNames)).map (CapabilityTable.refusal config.traceId ·.name)
  /-- Every listed name has an index exactly if there is room for all of them. -/
  named : (∀ entry ∈ config.capabilities, c.table.index? entry.name ≠ none) ↔
    config.names.eraseDups.length < CapabilityTable.capacity
  clean : (∀ e ∈ c.log.events, e.errorCode = none) ↔
    config.names.eraseDups.length < CapabilityTable.capacity

theorem room_for_seeding (hfew : config.origins.length ≤ Origin.Registry.freeSlots) :
    (Origin.Registry.empty config.traceId).size + (seeding config).countP Origin.Registry.Request.asksSlot ≤
      Origin.Registry.capacity := by
  have hasked : (seeding config).countP Origin.Registry.Request.asksSlot = config.origins.length := by
    simp [seeding, List.countP_append, List.countP_map, Function.comp_def, Origin.Registry.Request.asksSlot]
  rw [hasked]
  exact Nat.add_le_add_left hfew Origin.Registry.reservedKeys.length

theorem table_ofConfig (config : Config) :
    (ofConfig config).table = ((CapabilityTable.empty config.traceId).serveAll (config.capabilities.map .put)).drain.2 := by
  rw [← CapabilityTable.putAll_eq_serveAll]
  rfl

theorem firstNames_eq (hnamed : ∀ entry ∈ config.capabilities, entry.name ≠ "") :
    CapabilityTable.firstNames (config.capabilities.map .put) = config.firstNames := by
  rw [CapabilityTable.firstNames, CapabilityTable.records_map_put hnamed]
  rfl

theorem keys_ofConfig (hnamed : ∀ entry ∈ config.capabilities, entry.name ≠ "") :
    (ofConfig config).table.keys = "" :: config.firstNames := by
  rw [table_ofConfig, ← firstNames_eq hnamed]
  exact CapabilityTable.keys_serveAll_empty config.traceId _

theorem diagnostics_ofConfig (hfew : config.origins.length ≤ Origin.Registry.freeSlots)
    (hnamed : ∀ entry ∈ config.capabilities, entry.name ≠ "") :
    (ofConfig config).log.diagnostics =
      (config.capabilities.filter (·.name ∉ config.firstNames)).map
        (CapabilityTable.refusal config.traceId ·.name) := by
  have hregistry := Origin.Registry.diagnostics_serveAll (room_for_seeding hfew) rfl
  have htable := (CapabilityTable.putsAll_putAll (t := .empty config.traceId) List.prefix_rfl hnamed).diagnostics
  have hkeys : ((CapabilityTable.empty config.traceId).putAll config.capabilities).keys = "" :: config.firstNames :=
    keys_ofConfig hnamed
  have hmissing : config.capabilities.filter (·.name ∉ "" :: config.firstNames) =
      config.capabilities.filter (·.name ∉ config.firstNames) :=
    List.filter_congr fun entry hentry => by simp [hnamed entry hentry]
  rw [EventLog.diagnostics] at hregistry htable ⊢
  rw [log_ofConfig, List.filter_append, hregistry, htable, hkeys, hmissing]
  rfl

theorem index?_ofConfig (hnamed : ∀ entry ∈ config.capabilities, entry.name ≠ "") (name : String) :
    (ofConfig config).table.index? name = (config.firstNames.idxOf? name).map (· + 1) := by
  rw [table_ofConfig, ← firstNames_eq hnamed]
  exact CapabilityTable.index?_serveAll_empty config.traceId _ name

/-- A new context of an accepted configuration knows all origins and has the capabilities for which there is
room. -/
theorem seeded_of_validate (h : config.validate = .ok ()) : Seeded config (ofConfig config) := by
  obtain ⟨hfew, hnamed⟩ := Config.validate_eq_ok_iff.mp h
  have hindices := index?_ofConfig hnamed
  have hrefused := diagnostics_ofConfig hfew hnamed
  refine ⟨fun url hurl => ?_, hindices, hrefused, ?_, ?_⟩
  · have hput : ∃ asPolicy, Origin.Registry.Request.put url asPolicy ∈ seeding config := by
      rcases List.mem_append.mp hurl with hpolicy | hordinary
      · exact ⟨true, List.mem_append_left _ (List.mem_map_of_mem hpolicy)⟩
      · exact ⟨false, List.mem_append_right _ (List.mem_map_of_mem hordinary)⟩
    obtain ⟨asPolicy, hput⟩ := hput
    rw [registry_ofConfig]
    exact Origin.Registry.lookup_serveAll_of_mem (room_for_seeding hfew) hput
  · rw [← Config.forall_mem_firstNames_iff]
    simp [hindices]
  · rw [← EventLog.diagnostics_eq_nil_iff, hrefused, ← Config.forall_mem_firstNames_iff, List.map_eq_nil_iff,
      List.filter_eq_nil_iff]
    simp

/-- Names and origins that are listed twice take one place each. -/
theorem seeded_of_validate_repeated :
    let config : Config :=
      { policyOrigins := ["https://policy.example/m.js", "https://policy.example/m.js"]
        origins := ["", "https://shop.example/a", "https://shop.example/b", "https://policy.example/n.js"]
        capabilities := [⟨"cookie", 3, 4, 0⟩, ⟨"form", 1, 8, 4⟩, ⟨"cookie", 0, 0, 0⟩] }
    config.validate = .ok () ∧ Seeded config (ofConfig config) :=
  ⟨by decide +kernel, seeded_of_validate (by decide +kernel)⟩

/-- A configuration with one name too many is accepted, and the last one is lost. -/
theorem seeding_drops_capability :
    let config : Config := { capabilities := (List.range 64).map fun i => ⟨toString i, 0, 0, 0⟩ }
    config.validate = .ok () ∧ "63" ∈ config.names ∧ (ofConfig config).table.index? "63" = none ∧
      ¬ ∀ e ∈ (ofConfig config).log.events, e.errorCode = none := by
  decide +kernel

end Context
end InfoFlow

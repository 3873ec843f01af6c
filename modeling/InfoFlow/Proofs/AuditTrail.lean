import InfoFlow.Proofs.Recording

/-! # The log as an audit trail

The events of a run, those that the host has taken and those still in the log, tell what the context holds:
which origins have slots and which labels these have, who is a policy origin, which capabilities are recorded
and which scripts run. Each update of a context adds to the events exactly what it adds to the tables and does
to the running scripts, so a run keeps the account. -/

namespace InfoFlow.Context

open Origin (Registry)

variable {c d : Context} {traceId : String} {events new past : List Event}

/-! ### The account -/

/-- The events give an account of the context: they belong to the run `traceId` as all its logs do, and what
they report is what its tables hold and which scripts run. -/
structure Accounted (traceId : String) (events : List Event) (c : Context) : Prop where
  drained : c.Drained
  log : c.log.traceId = traceId
  registry : c.registry.log.traceId = traceId
  table : c.table.log.traceId = traceId
  own : ∀ e ∈ events, e.traceId = traceId
  slots : c.registry.slots = (Registry.empty traceId).slots ++ events.filterMap Event.slotGiven?
  policyOrigins : c.registry.policyOrigins.map some = events.filterMap Event.policyOrigin?
  names : c.table.names = (CapabilityTable.empty traceId).names ++ events.filterMap Event.capability?
  scripts : c.scripts = events.foldl Event.scriptsAfter []

namespace Accounted

/-- What the registry reports of itself goes into the account. -/
theorem registered (h : Accounted traceId events c) {r : Registry} (hr : c.registry.Reported r new) :
    Accounted traceId (events ++ new)
      { c with registry := { r with log := c.registry.log }, log := c.log.append new } where
  drained := ⟨h.drained.registry, h.drained.table⟩
  log := h.log
  registry := h.registry
  table := h.table
  own := List.forall_mem_append.mpr ⟨h.own, fun e he => (hr.own e he).traceId.trans h.registry⟩
  slots := by
    rw [List.filterMap_append, ← List.append_assoc, ← h.slots]
    exact hr.slots
  policyOrigins := by
    rw [List.filterMap_append, ← h.policyOrigins]
    exact hr.policyOrigins
  names := by
    rw [List.filterMap_append, hr.filterMap_eq_nil Event.capability?_of_ne (by decide), List.append_nil]
    exact h.names
  scripts := by
    rw [List.foldl_append, ← h.scripts, hr.foldl_scriptsAfter (by decide)]

/-- What the table of capabilities reports of itself goes into the account. -/
theorem tabled (h : Accounted traceId events c) {t : CapabilityTable} (ht : c.table.Reported t new) :
    Accounted traceId (events ++ new)
      { c with table := { t with log := c.table.log }, log := c.log.append new } where
  drained := ⟨h.drained.registry, h.drained.table⟩
  log := h.log
  registry := h.registry
  table := h.table
  own := List.forall_mem_append.mpr ⟨h.own, fun e he => (ht.own e he).traceId.trans h.table⟩
  slots := by
    rw [List.filterMap_append, ht.filterMap_eq_nil Event.slotGiven?_of_ne (by decide), List.append_nil]
    exact h.slots
  policyOrigins := by
    rw [List.filterMap_append, ht.filterMap_eq_nil Event.policyOrigin?_of_ne (by decide), List.append_nil]
    exact h.policyOrigins
  names := by
    rw [List.filterMap_append, ← List.append_assoc, ← h.names]
    exact ht.names
  scripts := by
    rw [List.foldl_append, ← h.scripts, ht.foldl_scriptsAfter (by decide)]

/-- An event that reports no entry tells at most which scripts run. -/
theorem recorded (h : Accounted traceId events c) {event : Event} (hid : event.traceId = c.log.traceId)
    (haside : event.isAside = true) :
    Accounted traceId (events ++ [event])
      { c with log := c.log.push event, scripts := event.scriptsAfter c.scripts } := by
  simp only [Event.isAside, Bool.and_eq_true, Option.isNone_iff_eq_none] at haside
  obtain ⟨⟨hslot, hpolicy⟩, hcapability⟩ := haside
  exact
    { drained := ⟨h.drained.registry, h.drained.table⟩
      log := h.log
      registry := h.registry
      table := h.table
      own := List.forall_mem_append.mpr ⟨h.own, List.forall_mem_singleton.mpr (hid.trans h.log)⟩
      slots := by simpa [hslot] using h.slots
      policyOrigins := by simpa [hpolicy] using h.policyOrigins
      names := by simpa [hcapability] using h.names
      scripts := by rw [List.foldl_append, ← h.scripts]; rfl }

/-- The account tells nothing of the regions, of the globals and of the masks of the capabilities. -/
theorem congr (h : Accounted traceId events c) (registry : d.registry = c.registry)
    (table : d.table.log = c.table.log) (names : d.table.names = c.table.names) (log : d.log = c.log)
    (scripts : d.scripts = c.scripts) : Accounted traceId events d where
  drained := ⟨registry ▸ h.drained.registry, table ▸ h.drained.table⟩
  log := log ▸ h.log
  registry := registry ▸ h.registry
  table := table ▸ h.table
  own := h.own
  slots := registry ▸ h.slots
  policyOrigins := registry ▸ h.policyOrigins
  names := names.trans h.names
  scripts := scripts.trans h.scripts

end Accounted

/-! ### Updates -/

/-- A blocked write is put into the log and is no part of the account. -/
theorem accounted_guardUpgrade (h : Accounted traceId (past ++ c.log.events) c) (existing : Label) :
    Accounted traceId (past ++ (c.guardUpgrade existing).2.log.events) (c.guardUpgrade existing).2 := by
  unfold guardUpgrade
  split
  · exact h
  · have hrequested : Accounted traceId (past ++ c.log.events) { c with globals := c.globals.requestAbort } :=
      h.congr rfl rfl rfl rfl rfl
    simp only [hrequested.drained.record, EventLog.push, ← List.append_assoc]
    exact hrequested.recorded rfl rfl

/-- An update puts into the log what it does. -/
theorem Update.accounted (h : Update c d) (hc : Accounted traceId (past ++ c.log.events) c) :
    Accounted traceId (past ++ d.log.events) d := by
  cases h with
  | move stack => exact hc.congr rfl rfl rfl rfl rfl
  | loop loopEdge => exact hc.congr rfl rfl rfl rfl rfl
  | globals globals _ _ => exact hc.congr rfl rfl rfl rfl rfl
  | bits table hlog hnames => exact hc.congr rfl hlog hnames rfl rfl
  | registration url asPolicy =>
    obtain ⟨new, hnew⟩ := c.registry.reported_put url asPolicy
    simp only [registerOrigin, hc.drained.collect_registry hnew.appended, EventLog.append, ← List.append_assoc]
    exact hc.registered hnew
  | lookup url =>
    obtain ⟨new, hnew⟩ := c.registry.reported_getLabel url
    simp only [originLabel, hc.drained.collect_registry hnew.appended, EventLog.append, ← List.append_assoc]
    exact hc.registered hnew
  | capability entry =>
    obtain ⟨new, hnew⟩ := c.table.reported_put entry
    simp only [recordCapability, hc.drained.collect_table hnew.appended, EventLog.append, ← List.append_assoc]
    exact hc.tabled hnew
  | note event hevent =>
    simp only [hc.drained.record, EventLog.push, ← List.append_assoc]
    exact hc.recorded hevent.traceId hevent.isAside
  | block existing => exact accounted_guardUpgrade hc existing

theorem Updates.accounted (h : Updates c d) (hc : Accounted traceId (past ++ c.log.events) c) :
    Accounted traceId (past ++ d.log.events) d := by
  induction h with
  | refl => exact hc
  | tail _ hlast ih => exact hlast.accounted ih

/-! ### Runs -/

/-- The events that an operation hands out. -/
def taken (c : Context) : Operation → List Event
  | .drain => c.drain.1
  | _ => []

/-- All events of a run in the order in which they are recorded: those that its drains have handed out, then
those that are still in the log. -/
def emitted (c : Context) : List Operation → List Event
  | [] => c.log.events
  | op :: ops => c.taken op ++ (c.perform op).emitted ops

theorem taken_of_ne {op : Operation} (h : op ≠ .drain) : c.taken op = [] := by
  cases op with
  | drain => exact absurd rfl h
  | _ => rfl

theorem Drained.drain (h : c.Drained) : c.drain = (c.log.events, { c with log := c.log.drained }) := by
  simp only [Context.drain, h.collect]

theorem accounted_drain (h : Accounted traceId (past ++ c.log.events) c) :
    Accounted traceId (past ++ c.drain.1 ++ c.drain.2.log.events) c.drain.2 := by
  simp only [h.drained.drain, EventLog.drained, EventLog.empty, List.append_nil]
  exact { h with drained := ⟨h.drained.registry, h.drained.table⟩ }

theorem accounted_perform (h : Accounted traceId (past ++ c.log.events) c) (op : Operation) :
    Accounted traceId (past ++ c.taken op ++ (c.perform op).log.events) (c.perform op) := by
  -- What a drain hands out leaves the log and stays among the events.
  by_cases hdrain : op = .drain
  · rw [hdrain]
    exact accounted_drain h
  · rw [taken_of_ne hdrain, List.append_nil]
    rcases perform_cases c op with heq | rfl | hupdates
    · exact absurd heq hdrain
    · exact h.congr rfl rfl rfl rfl rfl
    · exact hupdates.accounted h

theorem accounted_run (h : Accounted traceId (past ++ c.log.events) c) (ops : List Operation) :
    Accounted traceId (past ++ c.emitted ops) (c.run ops) := by
  induction ops generalizing past c with
  | nil => exact h
  | cons op ops ih =>
    have hstep := ih (accounted_perform h op)
    rwa [List.append_assoc] at hstep

theorem accounted_fresh (config : Config) : Accounted config.traceId [] (fresh config) where
  drained := ⟨rfl, rfl⟩
  log := rfl
  registry := rfl
  table := rfl
  own := List.forall_mem_nil _
  slots := by rw [List.filterMap_nil, List.append_nil, fresh]
  policyOrigins := List.map_nil
  names := by rw [List.filterMap_nil, List.append_nil, fresh]
  scripts := rfl

theorem accounted_ofConfig (config : Config) :
    Accounted config.traceId (ofConfig config).log.events (ofConfig config) := by
  obtain ⟨r, t, a, b, hr, ht, heq⟩ := ofConfig_eq config
  rw [heq]
  exact ((accounted_fresh config).registered hr).tabled ht

/-! ### The trail -/

/-- The events are a complete audit trail of a context that belongs to the run `traceId`. -/
structure AuditTrail (traceId : String) (events : List Event) (c : Context) : Prop where
  log : c.log.traceId = traceId
  own : ∀ e ∈ events, e.traceId = traceId
  collected : c.Drained
  /-- The slots that are reported as given are all but the reserved ones. -/
  slots : events.filterMap Event.slotGiven? =
    (c.registry.entries.drop Registry.reservedKeys.length).map fun e => (some e.key, some e.label)
  policyOrigins : events.filterMap Event.policyOrigin? = c.registry.policyOrigins.map some
  /-- The capabilities that are reported as recorded are all but the null record. -/
  capabilities : events.filterMap Event.capability? = (c.table.entries.drop 1).map fun e => some e.name
  scripts : events.foldl Event.scriptsAfter [] = c.scripts

theorem Accounted.auditTrail (h : Accounted traceId events c) : AuditTrail traceId events c where
  log := h.log
  own := h.own
  collected := h.drained
  slots := by
    have hreserved : (Registry.empty traceId).slots.length = Registry.reservedKeys.length := rfl
    have hdrop := congrArg (List.drop Registry.reservedKeys.length) h.slots
    rw [List.drop_left' hreserved] at hdrop
    rw [← hdrop, List.map_drop]
    rfl
  policyOrigins := h.policyOrigins.symm
  capabilities := by
    have hnull : (CapabilityTable.empty traceId).names.length = 1 := rfl
    have hdrop := congrArg (List.drop 1) h.names
    rw [List.drop_left' hnull] at hdrop
    rw [← hdrop, List.map_drop]
    rfl
  scripts := h.scripts.symm

/-- In every run of every configuration the events, in the order in which they are recorded and with those that
drains have handed out, are a complete audit trail of the context that is reached. -/
theorem audit_trail (config : Config) (ops : List Operation) :
    AuditTrail config.traceId ((ofConfig config).emitted ops) ((ofConfig config).run ops) := by
  have hstart : Accounted config.traceId ([] ++ (ofConfig config).log.events) (ofConfig config) :=
    accounted_ofConfig config
  exact (accounted_run hstart ops).auditTrail

end InfoFlow.Context

import Mathlib.Logic.Relation
import InfoFlow.Proofs.CapabilityRecords
import InfoFlow.Proofs.Control
import InfoFlow.Proofs.Requests

/-! # What operations record

An operation is a chain of elementary updates: control moves, the registries are asked, a part of the
globals is set, an event is recorded. After each of them the registries have handed out their events and
the log has only got longer, and the request to stop is made exactly where a blocked write is recorded.
Only two operations are no such chains: a drain empties the log, and an acknowledgement takes the request
back. -/

namespace InfoFlow

theorem CapabilityTable.names_eq (t : CapabilityTable) : t.names = t.keys.map some := List.map_map.symm

theorem CapabilityTable.setBitsAt_keeps {t : CapabilityTable} {index : Nat} {bits : UInt64} :
    (t.setBitsAt index bits).2.log = t.log ∧ (t.setBitsAt index bits).2.names = t.names := by
  refine ⟨?_, by rw [names_eq, keys_setBitsAt, names_eq]⟩
  unfold setBitsAt
  split <;> rfl

theorem CapabilityTable.setBits_keeps {t : CapabilityTable} {name : String} {bits : UInt64} :
    (t.setBits name bits).2.log = t.log ∧ (t.setBits name bits).2.names = t.names := by
  unfold setBits
  split
  · exact setBitsAt_keeps
  · exact ⟨rfl, rfl⟩

/-- The event reports no entry of the tables. -/
def Event.isAside (e : Event) : Bool := e.slotGiven?.isNone && e.policyOrigin?.isNone && e.capability?.isNone

/-- The event reports neither a blocked write nor an entry of the tables. -/
def Event.isNote (e : Event) : Bool := e.outcome != .blocked && e.isAside

namespace Context

variable {c d e : Context}

/-! ### Collected events -/

/-- The registries have handed out all their events. -/
structure Drained (c : Context) : Prop where
  registry : c.registry.log.events = []
  table : c.table.log.events = []

theorem drained_collect (c : Context) : c.collect.Drained := ⟨rfl, rfl⟩

/-- What the tables have recorded goes to the log, behind what is there. -/
theorem Drained.collect_tables (h : c.Drained) {r : Origin.Registry} {t : CapabilityTable} {a b : List Event}
    (hr : r.log = c.registry.log.append a) (ht : t.log = c.table.log.append b) :
    Context.collect { c with registry := r, table := t } =
      { c with
        registry := { r with log := c.registry.log }
        table := { t with log := c.table.log }
        log := c.log.append (a ++ b) } := by
  obtain ⟨stack, ⟨entries, policyOrigins, ⟨registryId, registryEvents⟩⟩, ⟨capabilities, ⟨tableId, tableEvents⟩⟩,
    globals, ⟨traceId, events⟩, scripts⟩ := c
  obtain rfl : registryEvents = [] := h.registry
  obtain rfl : tableEvents = [] := h.table
  simp [Context.collect, Origin.Registry.drain, CapabilityTable.drain, EventLog.drained, EventLog.empty,
    EventLog.append, hr, ht]

theorem Drained.collect_registry (h : c.Drained) {r : Origin.Registry} {new : List Event}
    (hr : r.log = c.registry.log.append new) :
    Context.collect { c with registry := r } =
      { c with registry := { r with log := c.registry.log }, log := c.log.append new } := by
  have hcollect := h.collect_tables hr (EventLog.append_nil c.table.log).symm
  rwa [List.append_nil] at hcollect

theorem Drained.collect_table (h : c.Drained) {t : CapabilityTable} {new : List Event}
    (ht : t.log = c.table.log.append new) :
    Context.collect { c with table := t } =
      { c with table := { t with log := c.table.log }, log := c.log.append new } :=
  h.collect_tables (EventLog.append_nil c.registry.log).symm ht

theorem Drained.collect (h : c.Drained) : c.collect = c := by
  have hcollect := h.collect_registry (EventLog.append_nil c.registry.log).symm
  rwa [EventLog.append_nil] at hcollect

theorem Drained.record (h : c.Drained) (e : Event) : c.record e = { c with log := c.log.push e } := by
  unfold Context.record
  rw [h.collect]

/-! ### Updates -/

/-- An event that the context records itself. -/
structure Noted (c : Context) (e : Event) : Prop where
  traceId : e.traceId = c.log.traceId
  isNote : e.isNote = true

/-- An elementary change of a context. -/
inductive Update : Context → Context → Prop where
  /-- Control moves, and the copy of the program counter with it. -/
  | move (c : Context) (stack : Stack) : Update c (c.setStack stack)
  | loop (c : Context) (loopEdge : Bool) : Update c (c.setLoop loopEdge)
  /-- What is set in the globals is neither the copy of the program counter nor the request to stop. -/
  | globals (c : Context) (globals : Globals) : globals.pc = c.globals.pc → globals.abort = c.globals.abort →
      Update c { c with globals }
  | registration (c : Context) (url : String) (asPolicy : Bool) : Update c (c.registerOrigin url asPolicy).2
  | lookup (c : Context) (url : String) : Update c (c.originLabel url).2
  | capability (c : Context) (entry : Capability) : Update c (c.recordCapability entry).2
  | bits (c : Context) (table : CapabilityTable) : table.log = c.table.log → table.names = c.table.names →
      Update c { c with table }
  /-- An event is recorded, and those scripts run that it tells. -/
  | note (c : Context) (event : Event) : c.Noted event →
      Update c { c.record event with scripts := event.scriptsAfter c.scripts }
  | block (c : Context) (existing : Label) : Update c (c.guardUpgrade existing).2

def Updates : Context → Context → Prop := Relation.ReflTransGen Update

namespace Updates

theorem refl (c : Context) : Updates c c := Relation.ReflTransGen.refl

theorem trans (h : Updates c d) (h' : Updates d e) : Updates c e := Relation.ReflTransGen.trans h h'

theorem tail (h : Updates c d) (h' : Update d e) : Updates c e := Relation.ReflTransGen.tail h h'

theorem single (h : Update c d) : Updates c d := Relation.ReflTransGen.single h

end Updates

variable {α : Type} (c : Context)

/-- An event is recorded that is not about scripts. -/
theorem Update.record {c : Context} {event : Event} (h : c.Noted event)
    (hscripts : event.scriptsAfter c.scripts = c.scripts) : Update c (c.record event) := by
  have hnote := Update.note c event h
  rwa [hscripts] at hnote

theorem updates_setStack (stack : Stack) : Updates c (c.setStack stack) := .single (.move c stack)

/-! ### Policy operations -/

theorem updates_requirePolicy (activity : Activity) (h : activity.movesScripts = false) :
    Updates c (c.requirePolicy activity).2 := by
  unfold requirePolicy
  split
  · exact .refl c
  · exact .single (.record ⟨rfl, rfl⟩ (Event.scriptsAfter_of_movesScripts h _))

theorem updates_resolve (hint : Origin.Hint) (activity : Activity) (h : activity.movesScripts = false) :
    Updates c (c.resolve hint activity).2 := by
  unfold resolve
  split
  · exact .single (.lookup c _)
  · split
    · exact .single (.lookup c _)
    · exact .single (.record ⟨rfl, rfl⟩ (Event.scriptsAfter_of_movesScripts h _))

theorem updates_guardUpgrade (existing : Label) : Updates c (c.guardUpgrade existing).2 := .single (.block c existing)

theorem updates_checkedWrite (existing value : Label) : Updates c (c.checkedWrite existing value).2 := by
  have h := updates_guardUpgrade c existing
  unfold checkedWrite
  split <;> simp_all

theorem updates_assign (target : Labeled α) (hint : Origin.Hint) : Updates c (c.assign target hint).2.2 := by
  have hrequire := updates_requirePolicy c .labelAssigned rfl
  unfold assign
  split
  · simp_all
  · rename_i d hd
    have hresolve := updates_resolve d hint .labelAssigned rfl
    rw [hd] at hrequire
    split
    · rename_i heq
      rw [heq] at hresolve
      exact hrequire.trans hresolve
    · rename_i heq
      rw [heq] at hresolve
      exact (hrequire.trans hresolve).tail (.record ⟨rfl, rfl⟩ rfl)

theorem updates_upgrade (target : Labeled α) : Updates c (c.upgrade target).2.2 := by
  have hresolve := updates_resolve c .currentScript .labelUpgraded rfl
  unfold upgrade
  split
  · simp_all
  · rename_i d hd
    have hguard := updates_guardUpgrade d target.label
    rw [hd] at hresolve
    split
    · rename_i heq
      rw [heq] at hguard
      exact hresolve.trans hguard
    · rename_i heq
      rw [heq] at hguard
      exact (hresolve.trans hguard).tail (.record ⟨rfl, rfl⟩ rfl)

theorem updates_accumulate (label : Label) (urls : List String) : Updates c (c.accumulate label urls).2 := by
  induction urls generalizing c label with
  | nil => exact .refl c
  | cons url rest ih =>
    have hfound : Updates c (c.originLabel url).2 := .single (.lookup c url)
    simp only [accumulate]
    split
    · exact hfound
    · exact hfound.trans (ih _ _)

theorem updates_setEventContext (urls : List String) : Updates c (c.setEventContext urls).2 := by
  have hrequire := updates_requirePolicy c .eventContextUpdated rfl
  unfold setEventContext
  split
  · simp_all
  · rename_i d hd
    rw [hd] at hrequire
    have haccumulated := hrequire.trans (updates_accumulate d d.globals.eventContextLabel urls)
    split
    rename_i label f hf
    rw [hf] at haccumulated
    have hset := haccumulated.tail (.globals f { f.globals with eventContextLabel := label } rfl rfl)
    exact hset.tail (.record ⟨rfl, rfl⟩ rfl)

/-! ### Hooks -/

theorem updates_enterScript (url : String) : Updates c (c.enterScript url).2 := by
  unfold enterScript
  split
  · exact (updates_setStack c _).tail (.note _ _ ⟨rfl, rfl⟩)
  · have hlooked : Updates c (c.originLabel url).2 := .single (.lookup c url)
    exact (hlooked.trans (updates_setStack _ _)).tail (.note _ _ ⟨rfl, rfl⟩)

theorem updates_exitScript : Updates c c.exitScript.2 := by
  unfold exitScript
  split
  · exact .refl c
  · rename_i url scripts heq
    have hleft : ({ c.setStack c.stack.leaveScript with scripts } : Context) =
        { c.setStack c.stack.leaveScript with scripts := c.scripts.tail } := by rw [heq]; rfl
    rw [hleft]
    exact (updates_setStack c _).tail (.note _ _ ⟨rfl, rfl⟩)

theorem updates_throwException (exception : Label) : Updates c (c.throwException exception).2 := by
  unfold throwException
  refine (updates_setStack c _).tail (.record ⟨rfl, ?_⟩ rfl)
  cases c.stack.unwind.top.exceptionEdge <;> rfl

theorem updates_apply (step : Step) : Updates c (c.apply step).2 := by
  cases step with
  | enterScript url => exact updates_enterScript c url
  | exitScript => exact updates_exitScript c
  | loopHeader condition exit =>
    simp only [apply, loopHeader]
    split
    · exact updates_setStack c _
    · exact updates_setStack c _
  | throwException exception => exact updates_throwException c exception
  | returnValue value => exact .single (.globals c _ rfl rfl)
  | write existing value =>
    have hwrite := updates_checkedWrite c existing value
    simp only [apply]
    split <;> simp_all
  | _ => exact updates_setStack c _

theorem updates_scriptSource (url : String) (isManifest : Bool) : Updates c (c.scriptSource url isManifest).2 := by
  have hregistered : Updates c (c.registerOrigin url isManifest).2 := .single (.registration c url isManifest)
  unfold scriptSource
  split
  rename_i heq
  rw [heq] at hregistered
  split
  · exact hregistered
  · exact hregistered.tail (.record ⟨rfl, rfl⟩ rfl)

/-- Every operation but a drain and an acknowledgement is a chain of updates. -/
theorem updates_perform {op : Operation} (hdrain : op ≠ .drain) (hclear : op ≠ .setGlobals .clearAbort) :
    Updates c (c.perform op) := by
  cases op with
  | hook step => exact updates_apply c step
  | push | pop | joinHandlers | joinBranch => exact updates_setStack c _
  | setLoop loopEdge => exact .single (.loop c loopEdge)
  | registerOrigin url asPolicy => exact .single (.registration c url asPolicy)
  | scriptSource url isManifest => exact updates_scriptSource c url isManifest
  | originLabel url => exact .single (.lookup c url)
  | recordCapability entry => exact .single (.capability c entry)
  | setBits name bits => exact .single (.bits c _ CapabilityTable.setBits_keeps.1 CapabilityTable.setBits_keeps.2)
  | setBitsAt index bits =>
    exact .single (.bits c _ CapabilityTable.setBitsAt_keeps.1 CapabilityTable.setBitsAt_keeps.2)
  | guardUpgrade existing => exact updates_guardUpgrade c existing
  | assign target hint => exact updates_assign c target hint
  | upgrade target => exact updates_upgrade c target
  | setEventContext urls => exact updates_setEventContext c urls
  | trust value => exact updates_setEventContext c _
  | setEnforcement mode => exact .single (.globals c _ rfl rfl)
  | setGlobals change =>
    cases change with
    | clearAbort => exact absurd rfl hclear
    | argumentLabel index label =>
      simp only [perform, Globals.change, Globals.setArgumentLabel]
      split <;> exact .single (.globals c _ rfl rfl)
    | _ => exact .single (.globals c _ rfl rfl)
  | drain => exact absurd rfl hdrain

theorem perform_cases (op : Operation) :
    op = .drain ∨ op = .setGlobals .clearAbort ∨ Updates c (c.perform op) := by
  by_cases hdrain : op = .drain
  · exact Or.inl hdrain
  · by_cases hclear : op = .setGlobals .clearAbort
    · exact Or.inr (Or.inl hclear)
    · exact Or.inr (Or.inr (updates_perform c hdrain hclear))

/-! ### What the updates record -/

/-- What has happened from one context to a later one: the registries have handed out their events, the
registry has served requests, and the log has got longer. The later context requests a stop if the earlier
one did or if a blocked write was recorded. -/
structure Recorded (c d : Context) : Prop where
  drained : d.Drained
  served : ∃ requests, d.registry = c.registry.serveAll requests
  log : ∃ new, d.log = c.log.append new ∧
    (d.globals.abort = true ↔ c.globals.abort = true ∨ ∃ e ∈ new, e.outcome = .blocked)

namespace Recorded

variable {c d e : Context}

theorem trans (h : Recorded c d) (h' : Recorded d e) : Recorded c e := by
  obtain ⟨first, hfirst⟩ := h.served
  obtain ⟨second, hsecond⟩ := h'.served
  obtain ⟨early, hearly, habort⟩ := h.log
  obtain ⟨late, hlate, habort'⟩ := h'.log
  refine ⟨h'.drained, ⟨first ++ second, ?_⟩, ⟨early ++ late, ?_, ?_⟩⟩
  · rw [hsecond, hfirst, Origin.Registry.serveAll_append]
  · rw [hlate, hearly, EventLog.append_append]
  · rw [habort', habort, or_assoc]
    simp only [List.mem_append, or_and_right, exists_or]

theorem of_eq (drained : c.Drained) (registry : d.registry = c.registry) (table : d.table.log = c.table.log)
    (log : d.log = c.log) (abort : d.globals.abort = c.globals.abort) : Recorded c d where
  drained := ⟨registry ▸ drained.registry, table ▸ drained.table⟩
  served := ⟨[], registry⟩
  log := ⟨[], log.trans (EventLog.append_nil _).symm, by simp [abort]⟩

theorem or_blocked_iff {requested : Prop} {new : List Event} (hnew : ∀ e ∈ new, e.outcome ≠ .blocked) :
    requested ↔ requested ∨ ∃ e ∈ new, e.outcome = .blocked := by
  constructor
  · exact Or.inl
  · rintro (h | ⟨e, he, hblocked⟩)
    · exact h
    · exact absurd hblocked (hnew e he)

/-- The events that a request adds to the registry's log go to the context's log. -/
theorem of_request (drained : c.Drained) (request : Origin.Registry.Request)
    (reported : ∃ new, c.registry.Reported (c.registry.serve request) new) :
    Recorded c (collect { c with registry := c.registry.serve request }) where
  drained := drained_collect _
  served := ⟨[request, .drain], rfl⟩
  log := by
    obtain ⟨new, hnew⟩ := reported
    refine ⟨new, congrArg Context.log (drained.collect_registry hnew.appended), ?_⟩
    exact or_blocked_iff fun e he => (hnew.own e he).outcome

theorem of_capability (drained : c.Drained) (entry : Capability) : Recorded c (c.recordCapability entry).2 where
  drained := drained_collect _
  served := ⟨[.drain], rfl⟩
  log := by
    obtain ⟨new, hnew⟩ := c.table.reported_put entry
    refine ⟨new, congrArg Context.log (drained.collect_table hnew.appended), ?_⟩
    exact or_blocked_iff fun e he => (hnew.own e he).outcome

theorem of_note (drained : c.Drained) {event : Event} (h : event.outcome ≠ .blocked) : Recorded c (c.record event) := by
  rw [drained.record]
  exact ⟨⟨drained.registry, drained.table⟩, ⟨[], rfl⟩, ⟨[event], rfl, by simp [h]⟩⟩

theorem of_guardUpgrade (drained : c.Drained) (existing : Label) : Recorded c (c.guardUpgrade existing).2 := by
  unfold guardUpgrade
  split
  · exact of_eq drained rfl rfl rfl rfl
  · have hdrained : Drained { c with globals := c.globals.requestAbort } := ⟨drained.registry, drained.table⟩
    simp only [hdrained.record]
    refine ⟨⟨drained.registry, drained.table⟩, ⟨[], rfl⟩, ⟨_, rfl, ?_⟩⟩
    simp [Globals.requestAbort, event, EventLog.event]

end Recorded

variable {c d : Context}

theorem Noted.outcome {event : Event} (h : c.Noted event) : event.outcome ≠ .blocked :=
  bne_iff_ne.mp (Bool.and_eq_true_iff.mp h.isNote).1

theorem Noted.isAside {event : Event} (h : c.Noted event) : event.isAside = true :=
  (Bool.and_eq_true_iff.mp h.isNote).2

theorem Update.recorded (h : Update c d) (drained : c.Drained) : Recorded c d := by
  cases h with
  | move stack => exact .of_eq drained rfl rfl rfl rfl
  | loop loopEdge => exact .of_eq drained rfl rfl rfl rfl
  | globals globals _ habort => exact .of_eq drained rfl rfl rfl habort
  | registration url asPolicy => exact .of_request drained (.put url asPolicy) (c.registry.reported_put url asPolicy)
  | lookup url => exact .of_request drained (.getLabel url) (c.registry.reported_getLabel url)
  | capability entry => exact .of_capability drained entry
  | bits table hlog _ => exact .of_eq drained rfl hlog rfl rfl
  | note event hevent =>
    have hrecorded := Recorded.of_note drained hevent.outcome
    exact ⟨⟨hrecorded.drained.registry, hrecorded.drained.table⟩, hrecorded.served, hrecorded.log⟩
  | block existing => exact .of_guardUpgrade drained existing

theorem Updates.recorded (h : Updates c d) (drained : c.Drained) : Recorded c d := by
  induction h with
  | refl => exact .of_eq drained rfl rfl rfl rfl
  | tail _ hlast ih => exact ih.trans (hlast.recorded ih.drained)

/-! ### Runs -/

theorem Drained.perform (h : c.Drained) (op : Operation) : (c.perform op).Drained := by
  rcases perform_cases c op with rfl | rfl | hupdates
  · exact ⟨rfl, rfl⟩
  · exact ⟨h.registry, h.table⟩
  · exact (hupdates.recorded h).drained

/-- An operation acts on the registry by requests. -/
theorem Drained.served (h : c.Drained) (op : Operation) :
    ∃ requests, (c.perform op).registry = c.registry.serveAll requests := by
  rcases perform_cases c op with rfl | rfl | hupdates
  · exact ⟨[.drain], rfl⟩
  · exact ⟨[], rfl⟩
  · exact (hupdates.recorded h).served

/-- A context before anything of its configuration is registered. -/
def fresh (config : Config) : Context where
  stack := .initial
  registry := .empty config.traceId
  table := .empty config.traceId
  globals := .initial config.enforcement
  log := .empty config.traceId
  scripts := []

/-- The log of a new context holds what its tables report of the configuration. -/
theorem ofConfig_eq (config : Config) :
    ∃ r t a b, (Origin.Registry.empty config.traceId).Reported r a ∧
      (CapabilityTable.empty config.traceId).Reported t b ∧
      ofConfig config =
        { fresh config with
          registry := { r with log := .empty config.traceId }
          table := { t with log := .empty config.traceId }
          log := (EventLog.empty config.traceId).append (a ++ b) } := by
  obtain ⟨asPolicy, hpolicy⟩ := EventLog.recorded_foldl Origin.Registry.Reported.refl Origin.Registry.Reported.trans
    Origin.Registry.reported_putPolicy (.empty config.traceId) config.policyOrigins
  obtain ⟨asOrigins, horigins⟩ := EventLog.recorded_foldl Origin.Registry.Reported.refl Origin.Registry.Reported.trans
    Origin.Registry.reported_putOrigin
    (config.policyOrigins.foldl (fun r url => (r.putPolicy url).2) (.empty config.traceId)) config.origins
  obtain ⟨named, hnamed⟩ := EventLog.recorded_foldl CapabilityTable.Reported.refl CapabilityTable.Reported.trans
    CapabilityTable.reported_put (.empty config.traceId) config.capabilities
  have hdrained : (fresh config).Drained := ⟨rfl, rfl⟩
  have hregistry := hpolicy.trans horigins
  exact ⟨_, _, _, _, hregistry, hnamed, hdrained.collect_tables hregistry.appended hnamed.appended⟩

theorem drained_ofConfig (config : Config) : (ofConfig config).Drained := drained_collect _

/-- The requests that a configuration makes to the registry of a new context. -/
def seeding (config : Config) : List Origin.Registry.Request :=
  config.policyOrigins.map (.put · true) ++ config.origins.map (.put · false)

theorem registry_ofConfig (config : Config) :
    (ofConfig config).registry = ((Origin.Registry.empty config.traceId).serveAll (seeding config)).drain.2 := by
  simp only [Origin.Registry.serveAll, seeding, List.foldl_append, List.foldl_map]
  rfl

theorem served_ofConfig (config : Config) :
    ∃ requests, (ofConfig config).registry = (Origin.Registry.empty config.traceId).serveAll requests := by
  refine ⟨seeding config ++ [.drain], ?_⟩
  rw [registry_ofConfig, Origin.Registry.serveAll_append]
  rfl

theorem run_of_kept {P : Context → Prop} {ops : List Operation} (start : P c)
    (kept : ∀ d, P d → ∀ op, P (d.perform op)) : P (c.run ops) :=
  states_of_kept (Q := fun _ => True) start (fun _ _ => trivial) (fun d hd op _ _ => kept d hd op) _ run_mem_states

theorem drained_run (config : Config) (ops : List Operation) : ((ofConfig config).run ops).Drained :=
  run_of_kept (drained_ofConfig config) fun _ hd op => hd.perform op

/-- A registry of a context comes from the empty one by requests. -/
theorem served_run (config : Config) (ops : List Operation) :
    ∃ requests, ((ofConfig config).run ops).registry = (Origin.Registry.empty config.traceId).serveAll requests := by
  have h : ((ofConfig config).run ops).Drained ∧ ∃ requests,
      ((ofConfig config).run ops).registry = (Origin.Registry.empty config.traceId).serveAll requests := by
    refine run_of_kept
      (P := fun c => c.Drained ∧ ∃ requests, c.registry = (Origin.Registry.empty config.traceId).serveAll requests)
      ⟨drained_ofConfig config, served_ofConfig config⟩ fun d hd op => ?_
    obtain ⟨hdrained, before, hbefore⟩ := hd
    obtain ⟨after, hafter⟩ := hdrained.served op
    exact ⟨hdrained.perform op, before ++ after, by rw [hafter, hbefore, Origin.Registry.serveAll_append]⟩
  exact h.2

end Context
end InfoFlow

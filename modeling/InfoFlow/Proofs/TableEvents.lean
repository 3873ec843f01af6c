import InfoFlow.Capability
import InfoFlow.Proofs.PolicyOrigins

/-! # Events of the tables

The registry of origins and the table of capabilities record every entry that they add, and every one that
they have no room for. So what they hold can be read off the events that report success, in the order in which
these were recorded. -/

namespace InfoFlow

/-! ### What an event reports -/

/-- The activities that change which scripts run. -/
def Activity.movesScripts : Activity → Bool
  | .scriptEntered | .scriptExited => true
  | _ => false

namespace Event

/-- The key and the label of the slot that an event of the registry reports as given. -/
def slotGiven? (e : Event) : Option (Option String × Option Label) :=
  if e.outcome = .pass ∧ e.component = .originRegistry ∧ e.activity = .originRegistered then
    some (e.subject, e.label)
  else none

/-- The URL that an event reports as that of a new policy origin. -/
def policyOrigin? (e : Event) : Option (Option String) :=
  if e.outcome = .pass ∧ e.activity = .policyOriginRegistered then some e.subject else none

/-- The name that an event reports as that of a new capability. -/
def capability? (e : Event) : Option (Option String) :=
  if e.outcome = .pass ∧ e.activity = .capabilityRecorded then some e.subject else none

/-- The scripts that run after an event, the innermost first: one that starts is put in front, one that ends
is taken away. -/
def scriptsAfter (scripts : List String) (e : Event) : List String :=
  match e.activity with
  | .scriptEntered => e.subject.toList ++ scripts
  | .scriptExited => scripts.tail
  | _ => scripts

variable {e : Event} {events : List Event}

theorem slotGiven?_of_ne (h : e.activity ≠ .originRegistered) : e.slotGiven? = none :=
  if_neg fun hif => h hif.2.2

theorem policyOrigin?_of_ne (h : e.activity ≠ .policyOriginRegistered) : e.policyOrigin? = none :=
  if_neg fun hif => h hif.2

theorem capability?_of_ne (h : e.activity ≠ .capabilityRecorded) : e.capability? = none :=
  if_neg fun hif => h hif.2

theorem scriptsAfter_of_movesScripts (h : e.activity.movesScripts = false) (scripts : List String) :
    e.scriptsAfter scripts = scripts := by
  obtain ⟨traceId, component, activity, outcome, errorCode, subject, label, pc⟩ := e
  cases activity with
  | scriptEntered | scriptExited => cases h
  | _ => rfl

theorem foldl_scriptsAfter (h : ∀ e ∈ events, e.activity.movesScripts = false) (scripts : List String) :
    events.foldl scriptsAfter scripts = scripts := by
  induction events with
  | nil => rfl
  | cons e rest ih =>
    rw [List.foldl_cons, scriptsAfter_of_movesScripts (h e List.mem_cons_self)]
    exact ih fun e he => h e (List.mem_cons_of_mem _ he)

/-- An event of the run `traceId` that reports one of the given activities and no blocked write. -/
structure Reports (traceId : String) (activities : List Activity) (e : Event) : Prop where
  traceId : e.traceId = traceId
  outcome : e.outcome ≠ .blocked
  code : e.errorCode ≠ some sensitiveUpgradeCode
  activity : e.activity ∈ activities

end Event

/-! ### Logs -/

namespace EventLog

variable {log log' log'' : EventLog} {a b new new' : List Event} {activities : List Activity}

@[simp] theorem append_nil (log : EventLog) : log.append [] = log := by
  simp [append]

@[simp] theorem append_append : (log.append a).append b = log.append (a ++ b) := by
  simp [append]

theorem diagnostics_push (log : EventLog) (e : Event) :
    (log.push e).diagnostics = log.diagnostics ++ if e.isDiagnostic then [e] else [] := by
  simp [diagnostics, push, List.filter_append, List.filter_cons]

/-- A log grows by the events `new` of its run, which report some of the given activities. -/
structure Extends (log log' : EventLog) (activities : List Activity) (new : List Event) : Prop where
  appended : log' = log.append new
  own : ∀ e ∈ new, e.Reports log.traceId activities

namespace Extends

theorem refl (log : EventLog) (activities : List Activity) : log.Extends log activities [] :=
  ⟨(append_nil log).symm, fun _ he => absurd he List.not_mem_nil⟩

theorem push {e : Event} (h : e.Reports log.traceId activities) : log.Extends (log.push e) activities [e] :=
  ⟨rfl, List.forall_mem_singleton.mpr h⟩

theorem trans (h : log.Extends log' activities new) (h' : log'.Extends log'' activities new') :
    log.Extends log'' activities (new ++ new') where
  appended := by rw [h'.appended, h.appended, append_append]
  own := by
    intro e he
    rcases List.mem_append.mp he with he | he
    · exact h.own e he
    · have hreports := h'.own e he
      rwa [h.appended] at hreports

theorem filterMap_eq_nil (h : log.Extends log' activities new) {β : Type} {f : Event → Option β} {activity : Activity}
    (hf : ∀ {e : Event}, e.activity ≠ activity → f e = none) (hactivity : activity ∉ activities) :
    new.filterMap f = [] :=
  List.filterMap_eq_nil_iff.mpr fun e he => hf fun heq => hactivity (heq ▸ (h.own e he).activity)

theorem foldl_scriptsAfter (h : log.Extends log' activities new)
    (hactivities : ∀ activity ∈ activities, activity.movesScripts = false) (scripts : List String) :
    new.foldl Event.scriptsAfter scripts = scripts :=
  Event.foldl_scriptsAfter (fun e he => hactivities _ (h.own e he).activity) scripts

end Extends

/-- What each step of a fold records, the whole fold records one after the other. -/
theorem recorded_foldl {σ β : Type} {R : σ → σ → List Event → Prop} {step : σ → β → σ} (refl : ∀ s, R s s [])
    (trans : ∀ {s t u a b}, R s t a → R t u b → R s u (a ++ b)) (h : ∀ s x, ∃ new, R s (step s x) new)
    (s : σ) (l : List β) : ∃ new, R s (l.foldl step s) new := by
  induction l generalizing s with
  | nil => exact ⟨[], refl s⟩
  | cons x rest ih =>
    obtain ⟨first, hfirst⟩ := h s x
    obtain ⟨second, hsecond⟩ := ih (step s x)
    exact ⟨first ++ second, trans hfirst hsecond⟩

end EventLog

/-! ### The registry -/

namespace Origin.Registry

/-- What the events of the registry are about. -/
def activities : List Activity := [.originRegistered, .policyOriginRegistered]

/-- The keys and the labels of the slots, in the form in which events report them. -/
def slots (r : Registry) : List (Option String × Option Label) := r.entries.map fun e => (some e.key, some e.label)

/-- The registry `r'` comes from `r`, and the events `new` report what it has added and refused. -/
structure Reported (r r' : Registry) (new : List Event) : Prop extends r.log.Extends r'.log activities new where
  slots : r'.slots = r.slots ++ new.filterMap Event.slotGiven?
  policyOrigins : r'.policyOrigins.map some = r.policyOrigins.map some ++ new.filterMap Event.policyOrigin?

variable {r r' r'' : Registry} {new new' : List Event}

theorem Reported.refl (r : Registry) : Reported r r [] :=
  ⟨.refl _ _, (List.append_nil _).symm, (List.append_nil _).symm⟩

theorem Reported.trans (h : Reported r r' new) (h' : Reported r' r'' new') : Reported r r'' (new ++ new') where
  toExtends := h.toExtends.trans h'.toExtends
  slots := by rw [h'.slots, h.slots, List.filterMap_append, List.append_assoc]
  policyOrigins := by rw [h'.policyOrigins, h.policyOrigins, List.filterMap_append, List.append_assoc]

theorem fullCode_ne : some registryFullCode ≠ some sensitiveUpgradeCode := by
  decide

theorem reported_append (r : Registry) (key : String) : ∃ new, Reported r (r.append key).2 new := by
  unfold append
  split
  · refine ⟨[_], .push ⟨rfl, nofun, fullCode_ne, List.mem_cons_self⟩, ?_, ?_⟩
    · exact (List.append_nil _).symm
    · exact (List.append_nil _).symm
  · exact ⟨[_], .push ⟨rfl, nofun, nofun, List.mem_cons_self⟩, List.map_append, (List.append_nil _).symm⟩

theorem reported_putPolicy (r : Registry) (url : String) : ∃ new, Reported r (r.putPolicy url).2 new := by
  unfold putPolicy
  split
  · exact ⟨[], .refl r⟩
  · refine ⟨[_], .push ⟨rfl, nofun, nofun, ?_⟩, (List.append_nil _).symm, List.map_append⟩
    exact List.mem_cons_of_mem _ List.mem_cons_self

theorem reported_putOrigin (r : Registry) (url : String) : ∃ new, Reported r (r.putOrigin url).2 new := by
  have happend := reported_append r (domain url)
  unfold putOrigin
  split
  · exact ⟨[], .refl r⟩
  · split
    · exact ⟨[], .refl r⟩
    · split <;> simp_all

theorem reported_put (r : Registry) (url : String) (asPolicy : Bool) :
    ∃ new, Reported r (r.put url asPolicy).2 new := by
  cases asPolicy with
  | true => exact reported_putPolicy r url
  | false => exact reported_putOrigin r url

theorem reported_getLabel (r : Registry) (url : String) : ∃ new, Reported r (r.getLabel url).2 new := by
  have happend := reported_append r (domain url)
  cases hlookup : r.lookup url with
  | some label =>
    rw [getLabel_of_lookup hlookup]
    exact ⟨[], .refl r⟩
  | none =>
    rw [getLabel_of_unknown hlookup, firstLabel]
    generalize r.append (domain url) = added at happend ⊢
    rcases added with ⟨_ | ⟨_, label⟩, r'⟩
    · -- The refusal is followed by the label that is answered in place of an unknown one.
      obtain ⟨new, hnew⟩ := happend
      refine ⟨new ++ [_], hnew.trans ⟨.push ⟨rfl, Outcome.noConfusion, fullCode_ne, List.mem_cons_self⟩, ?_, ?_⟩⟩
      · exact (List.append_nil _).symm
      · exact (List.append_nil _).symm
    · exact happend

end Origin.Registry

/-! ### The table of capabilities -/

namespace CapabilityTable

def activities : List Activity := [.capabilityRecorded]

/-- The names of the records, the null record's included, in the form in which events report them. -/
def names (t : CapabilityTable) : List (Option String) := t.entries.map fun e => some e.name

/-- The table `t'` comes from `t`, and the events `new` report what it has added and refused. -/
structure Reported (t t' : CapabilityTable) (new : List Event) : Prop extends t.log.Extends t'.log activities new where
  names : t'.names = t.names ++ new.filterMap Event.capability?

variable {t t' t'' : CapabilityTable} {new new' : List Event}

theorem Reported.refl (t : CapabilityTable) : Reported t t [] := ⟨.refl _ _, (List.append_nil _).symm⟩

theorem Reported.trans (h : Reported t t' new) (h' : Reported t' t'' new') : Reported t t'' (new ++ new') where
  toExtends := h.toExtends.trans h'.toExtends
  names := by rw [h'.names, h.names, List.filterMap_append, List.append_assoc]

theorem reported_refuse (t : CapabilityTable) (name : String) {code : String} {outcome : Outcome}
    (hpass : outcome ≠ .pass) (hblocked : outcome ≠ .blocked) (hcode : code ≠ sensitiveUpgradeCode) :
    ∃ new, Reported t (t.refuse name code outcome) new := by
  refine ⟨[_], .push ⟨rfl, hblocked, mt Option.some.inj hcode, List.mem_cons_self⟩, ?_⟩
  simp [Event.capability?, EventLog.event, refuse, names, hpass]

theorem reported_put (t : CapabilityTable) (entry : Capability) : ∃ new, Reported t (t.put entry).2 new := by
  unfold put
  split
  · exact reported_refuse t _ nofun nofun (by decide)
  · split
    · exact ⟨[], .refl t⟩
    · split
      · exact reported_refuse t _ nofun nofun (by decide)
      · exact ⟨[_], .push ⟨rfl, nofun, nofun, List.mem_cons_self⟩, List.map_append⟩

end CapabilityTable
end InfoFlow

import InfoFlow.Proofs.OriginLabels
import Mathlib.Data.List.Forall2

/-! # Contexts of events

Policy code names the origins under which event handlers run. Their labels are looked up in order, which registers
new origins, and joined into the present label. Only URLs that name no origin are public: the first of them ends
the list and makes the label public. -/

namespace InfoFlow

open Origin (isNull)

namespace Origin.Registry

variable {r : Registry} {url : String} {label : Label}

/-- The requests that looking up URLs makes to a registry whose events are collected after each of them. -/
def lookups (urls : List String) : List Request := urls.flatMap fun url => [.getLabel url, .drain]

theorem isPolicyOrigin_lookups (r : Registry) (urls : List String) :
    (r.serveAll (lookups urls)).isPolicyOrigin = r.isPolicyOrigin := by
  induction urls generalizing r with
  | nil => rfl
  | cons other rest ih =>
    exact (ih _).trans (isPolicyOrigin_congr policyOrigins_getLabel)

/-- What has been answered for a URL stays the answer while other URLs are looked up. -/
theorem Answers.lookups (h : r.Answers url label) (slotted : r.Slotted) (urls : List String) :
    (r.serveAll (lookups urls)).Answers url label := by
  have hlater := h.serveAll slotted (Registry.lookups urls)
  rw [isPolicyOrigin_lookups] at hlater
  cases hpolicy : r.isPolicyOrigin url with
  | true =>
    obtain rfl : label = .policy := by
      rcases h with hlookup | ⟨-, -, hlabel⟩
      · exact Option.some.inj (hlookup.symm.trans (lookup_of_isPolicyOrigin hpolicy))
      · exact hlabel
    rwa [ite_self] at hlater
  | false => rwa [hpolicy] at hlater

end Origin.Registry

namespace Context

open Origin Origin.Registry

variable {c d : Context} {url : String} {label : Label} {urls before rest : List String}

/-! ### Looking up origins in order -/

/-- The labels of URLs, which are looked up one after the other, and the context afterwards. -/
def originLabels (c : Context) : List String → List Label × Context
  | [] => ([], c)
  | url :: rest =>
    let (label, d) := c.originLabel url
    let (labels, e) := d.originLabels rest
    (label :: labels, e)

theorem originLabels_cons :
    c.originLabels (url :: rest) =
      ((c.originLabel url).1 :: ((c.originLabel url).2.originLabels rest).1,
        ((c.originLabel url).2.originLabels rest).2) := rfl

theorem originLabels_append (c : Context) (first second : List String) :
    c.originLabels (first ++ second) =
      ((c.originLabels first).1 ++ ((c.originLabels first).2.originLabels second).1,
        ((c.originLabels first).2.originLabels second).2) := by
  induction first generalizing c with
  | nil => rfl
  | cons url rest ih =>
    rw [List.cons_append, originLabels_cons, ih, originLabels_cons]
    rfl

theorem registry_originLabels (c : Context) (urls : List String) :
    (c.originLabels urls).2.registry = c.registry.serveAll (lookups urls) := by
  induction urls generalizing c with
  | nil => rfl
  | cons url rest ih => exact ih (c.originLabel url).2

theorem drained_originLabel (c : Context) (url : String) : (c.originLabel url).2.Drained := drained_collect _

theorem Drained.originLabels (h : c.Drained) (urls : List String) : (c.originLabels urls).2.Drained := by
  induction urls generalizing c with
  | nil => exact h
  | cons url rest ih => exact ih (drained_originLabel c url)

/-- A look-up answers, and records, the same in every context that has the same tables. -/
theorem Drained.originLabel_eq (h : c.Drained) (url : String) :
    ∃ new, ∀ d : Context, d.registry = c.registry → d.table = c.table →
      d.originLabel url =
        ((c.originLabel url).1, { d with registry := (c.originLabel url).2.registry, log := d.log.append new }) := by
  obtain ⟨new, hnew⟩ := c.registry.reported_getLabel url
  refine ⟨new, fun d hregistry htable => ?_⟩
  have hdrained : d.Drained := ⟨hregistry ▸ h.registry, htable ▸ h.table⟩
  have hlog : (c.registry.getLabel url).2.log = d.registry.log.append new := hregistry ▸ hnew.appended
  have hcollected : (c.originLabel url).2.registry = { (c.registry.getLabel url).2 with log := c.registry.log } :=
    congrArg Context.registry (h.collect_registry hnew.appended)
  have hanswer : (c.originLabel url).1 = (d.registry.getLabel url).1 := by
    rw [hregistry]
    rfl
  rw [← hregistry] at hlog hcollected
  rw [hanswer, hcollected]
  exact congrArg (Prod.mk _) (hdrained.collect_registry hlog)

theorem Drained.originLabels_eq (h : c.Drained) (urls : List String) :
    ∃ new, ∀ d : Context, d.registry = c.registry → d.table = c.table →
      d.originLabels urls =
        ((c.originLabels urls).1,
          { d with registry := (c.originLabels urls).2.registry, log := d.log.append new }) := by
  induction urls generalizing c with
  | nil =>
    refine ⟨[], fun d hregistry _ => ?_⟩
    rw [EventLog.append_nil]
    exact congrArg (fun registry => ([], { d with registry })) hregistry
  | cons url rest ih =>
    obtain ⟨early, hfirst⟩ := h.originLabel_eq url
    have hnext := hfirst c rfl rfl
    have htable : (c.originLabel url).2.table = c.table := congrArg (fun answer => answer.2.table) hnext
    obtain ⟨late, hrest⟩ := ih (drained_originLabel c url)
    refine ⟨early ++ late, fun d hregistry hsame => ?_⟩
    have hlater := hrest { d with registry := (c.originLabel url).2.registry, log := d.log.append early } rfl
      (hsame.trans htable.symm)
    rw [originLabels_cons, hfirst d hregistry hsame, hlater, originLabels_cons, EventLog.append_append]

theorem Drained.originLabels_kept (h : c.Drained) (urls : List String) :
    ∃ new, (c.originLabels urls).2 =
      { c with registry := c.registry.serveAll (lookups urls), log := c.log.append new } := by
  obtain ⟨new, hnew⟩ := h.originLabels_eq urls
  refine ⟨new, ?_⟩
  rw [← registry_originLabels]
  exact congrArg Prod.snd (hnew c rfl rfl)

/-- A public label is that of no origin, and looking it up leaves no trace. -/
theorem Drained.originLabel_of_public (h : c.Drained) (slotted : c.registry.Slotted)
    (hpublic : (c.originLabel url).1.isPublic = true) : (c.originLabel url).2 = c := by
  obtain ⟨hnull, hordinary⟩ := slotted.isPublic_getLabel_iff.mp hpublic
  have hlookup : c.registry.lookup url = some .bottom := by simp [lookup, hordinary, hnull]
  have hkept : (c.registry.getLabel url).2 = c.registry := by rw [getLabel_of_lookup hlookup]
  show Context.collect { c with registry := (c.registry.getLabel url).2 } = c
  rw [hkept, h.collect]

/-! ### Joining the labels -/

/-- None of the labels is public. -/
def NonePublic (labels : List Label) : Prop := ∀ label ∈ labels, label.isPublic = false

theorem accumulate_cons :
    c.accumulate label (url :: rest) =
      if (c.originLabel url).1.isPublic then (.bottom, (c.originLabel url).2)
      else (c.originLabel url).2.accumulate (label.join (c.originLabel url).1) rest := rfl

theorem accumulate_of_nonePublic (hnone : NonePublic (c.originLabels urls).1) :
    c.accumulate label urls = ((c.originLabels urls).1.foldl Label.join label, (c.originLabels urls).2) := by
  induction urls generalizing c label with
  | nil => rfl
  | cons url rest ih =>
    rw [originLabels_cons] at hnone ⊢
    obtain ⟨hfirst, hrest⟩ := List.forall_mem_cons.mp hnone
    rw [accumulate_cons, hfirst, if_neg Bool.false_ne_true, ih hrest]
    rfl

theorem accumulate_of_public (hnone : NonePublic (c.originLabels before).1)
    (hpublic : ((c.originLabels before).2.originLabel url).1.isPublic = true) :
    c.accumulate label (before ++ url :: rest) = (.bottom, ((c.originLabels before).2.originLabel url).2) := by
  induction before generalizing c label with
  | nil =>
    have hfirst : (c.originLabel url).1.isPublic = true := hpublic
    rw [List.nil_append, accumulate_cons, if_pos hfirst]
    rfl
  | cons other before ih =>
    rw [originLabels_cons] at hnone hpublic ⊢
    obtain ⟨hfirst, hrest⟩ := List.forall_mem_cons.mp hnone
    rw [List.cons_append, accumulate_cons, hfirst, if_neg Bool.false_ne_true, ih hrest hpublic]

/-- What is looked up are the first URLs of the list, perhaps all. -/
theorem accumulate_looks_up (c : Context) (label : Label) (urls : List String) :
    ∃ found, found <+: urls ∧ (c.accumulate label urls).2 = (c.originLabels found).2 := by
  induction urls generalizing c label with
  | nil => exact ⟨[], List.prefix_rfl, rfl⟩
  | cons url rest ih =>
    rw [accumulate_cons]
    split
    · exact ⟨[url], List.prefix_append [url] rest, rfl⟩
    · obtain ⟨found, hfound, heq⟩ := ih (c.originLabel url).2 (label.join (c.originLabel url).1)
      exact ⟨url :: found, List.prefix_cons_inj url |>.mpr hfound, heq⟩

/-! ### Setting the context -/

/-- The event that reports a new label of the context of events. -/
def contextUpdate (c : Context) (label : Label) : Event :=
  { c.event .policy .eventContextUpdated .pass with label := some label }

/-- The context with a new label for events, which is the last that the log reports. -/
def withEventContext (c : Context) (label : Label) : Context :=
  { c with globals := { c.globals with eventContextLabel := label }, log := c.log.push (c.contextUpdate label) }

theorem Drained.setEventContext_eq (h : c.Drained) (hpc : c.pc = .policy) (urls : List String) :
    c.setEventContext urls =
      (.ok (c.accumulate c.globals.eventContextLabel urls).1,
        (c.accumulate c.globals.eventContextLabel urls).2.withEventContext
          (c.accumulate c.globals.eventContextLabel urls).1) := by
  have hrequire : c.requirePolicy .eventContextUpdated = (.ok (), c) := if_pos hpc
  have hdrained : (c.accumulate c.globals.eventContextLabel urls).2.Drained := by
    obtain ⟨found, -, hfound⟩ := accumulate_looks_up c c.globals.eventContextLabel urls
    rw [hfound]
    exact h.originLabels found
  simp only [setEventContext, hrequire]
  generalize c.accumulate c.globals.eventContextLabel urls = found at hdrained
  obtain ⟨label, d⟩ := found
  have hnext : Drained { d with globals := { d.globals with eventContextLabel := label } } :=
    ⟨hdrained.registry, hdrained.table⟩
  exact congrArg (Prod.mk _) (hnext.record _)

/-- Two calls for the parts of a list do what one call does for the whole, but for the report of the first. -/
structure Splits (c : Context) (first second : List String) : Prop where
  answer : ((c.setEventContext first).2.setEventContext second).1 = (c.setEventContext (first ++ second)).1
  context : ((c.setEventContext first).2.setEventContext second).2 =
    { (c.setEventContext (first ++ second)).2 with
      log := ((c.setEventContext first).2.setEventContext second).2.log }
  log : ∃ early late label₁ label₂, (c.setEventContext first).1 = .ok label₁ ∧
    (c.setEventContext (first ++ second)).1 = .ok label₂ ∧
    (c.setEventContext (first ++ second)).2.log = c.log.append (early ++ late ++ [c.contextUpdate label₂]) ∧
    ((c.setEventContext first).2.setEventContext second).2.log =
      c.log.append (early ++ c.contextUpdate label₁ :: late ++ [c.contextUpdate label₂])

/-- What setting the label of events does in a context whose program counter is that of policy. -/
structure Accumulates (c : Context) : Prop where
  /-- Looking up origins is a matter of the registry and the log. -/
  found : ∀ urls, ∃ new, (c.originLabels urls).2 =
    { c with registry := c.registry.serveAll (lookups urls), log := c.log.append new }
  /-- What is answered for a URL stays its answer while the other ones are looked up. -/
  answers : ∀ urls, List.Forall₂ (c.originLabels urls).2.registry.Answers urls (c.originLabels urls).1
  /-- Which URLs are public does not depend on what is looked up before. -/
  isPublic : ∀ urls url, ((c.originLabels urls).2.originLabel url).1.isPublic = true ↔
    isNull url = true ∧ c.registry.isPolicyOrigin url = false
  joined : ∀ urls, NonePublic (c.originLabels urls).1 →
    c.setEventContext urls =
      (.ok ((c.originLabels urls).1.foldl Label.join c.globals.eventContextLabel),
        (c.originLabels urls).2.withEventContext
          ((c.originLabels urls).1.foldl Label.join c.globals.eventContextLabel))
  /-- The first public URL resets the label, and neither it nor what stands behind it leaves a trace. -/
  reset : ∀ before url rest, NonePublic (c.originLabels before).1 →
    ((c.originLabels before).2.originLabel url).1.isPublic = true →
    c.setEventContext (before ++ url :: rest) = (.ok .bottom, (c.originLabels before).2.withEventContext .bottom)
  splits : ∀ first second, NonePublic (c.originLabels (first ++ second)).1 → c.Splits first second
  kept : ∀ urls, ∃ registry log eventContextLabel, (c.setEventContext urls).2 =
    { c with registry, log, globals := { c.globals with eventContextLabel } }

theorem Drained.setEventContext_of_nonePublic (h : c.Drained) (hpc : c.pc = .policy)
    (hnone : NonePublic (c.originLabels urls).1) :
    c.setEventContext urls =
      (.ok ((c.originLabels urls).1.foldl Label.join c.globals.eventContextLabel),
        (c.originLabels urls).2.withEventContext
          ((c.originLabels urls).1.foldl Label.join c.globals.eventContextLabel)) := by
  rw [h.setEventContext_eq hpc, accumulate_of_nonePublic hnone]

theorem slotted_originLabels (slotted : c.registry.Slotted) (urls : List String) :
    (c.originLabels urls).2.registry.Slotted := by
  rw [registry_originLabels]
  exact slotted.serveAll _

theorem answers_originLabels (slotted : c.registry.Slotted) (urls : List String) :
    List.Forall₂ (c.originLabels urls).2.registry.Answers urls (c.originLabels urls).1 := by
  induction urls generalizing c with
  | nil => exact .nil
  | cons url rest ih =>
    have hslotted : (c.originLabel url).2.registry.Slotted := (slotted.serve (.getLabel url)).serve .drain
    have hanswer : (c.originLabel url).2.registry.Answers url (c.originLabel url).1 := c.registry.answers_getLabel url
    refine .cons ?_ (ih hslotted)
    rw [originLabels_cons, registry_originLabels]
    exact hanswer.lookups hslotted rest

/-- The label for events is not looked at while origins are looked up. -/
theorem Drained.originLabels_withEventContext (h : c.Drained) (label : Label) (urls : List String) :
    ∃ new, (c.originLabels urls).2 =
        { c with registry := (c.originLabels urls).2.registry, log := c.log.append new } ∧
      (c.withEventContext label).originLabels urls =
        ((c.originLabels urls).1,
          { c.withEventContext label with
            registry := (c.originLabels urls).2.registry
            log := (c.withEventContext label).log.append new }) := by
  obtain ⟨new, hnew⟩ := h.originLabels_eq urls
  exact ⟨new, congrArg Prod.snd (hnew c rfl rfl), hnew (c.withEventContext label) rfl rfl⟩

theorem Drained.splits (h : c.Drained) (hpc : c.pc = .policy) {first second : List String}
    (hnone : NonePublic (c.originLabels (first ++ second)).1) : c.Splits first second := by
  have honce := h.setEventContext_of_nonePublic hpc hnone
  rw [originLabels_append, List.foldl_append] at honce
  rw [originLabels_append] at hnone
  obtain ⟨hfirst, hsecond⟩ := List.forall_mem_append.mp hnone
  have hcall := h.setEventContext_of_nonePublic hpc hfirst
  obtain ⟨early, hearly⟩ := h.originLabels_kept first
  have drained := h.originLabels first
  generalize (c.originLabels first).1.foldl Label.join c.globals.eventContextLabel = label₁ at honce hcall
  generalize (c.originLabels first).2 = d at honce hcall hsecond hearly drained
  -- The second call finds in the context that the first one leaves what the single call finds in `d`.
  have hpc' : (d.withEventContext label₁).pc = .policy := by
    rw [hearly]
    exact hpc
  have drained' : (d.withEventContext label₁).Drained := ⟨drained.registry, drained.table⟩
  obtain ⟨late, hlate, hagain⟩ := drained.originLabels_withEventContext label₁ second
  generalize d.originLabels second = found at honce hsecond hlate hagain
  obtain ⟨labels, e⟩ := found
  have hsecond' : NonePublic ((d.withEventContext label₁).originLabels second).1 := by
    rw [hagain]
    exact hsecond
  have htwice := drained'.setEventContext_of_nonePublic hpc' hsecond'
  rw [hagain] at htwice
  constructor
  · rw [hcall, htwice, honce]
    rfl
  · rw [hcall, htwice, honce, hlate]
    rfl
  · refine ⟨early, late, label₁, labels.foldl Label.join label₁, by rw [hcall], by rw [honce], ?_, ?_⟩
    · rw [honce, hlate, hearly]
      show ((c.log.append early).append late).append [c.contextUpdate (labels.foldl Label.join label₁)] = _
      rw [EventLog.append_append, EventLog.append_append, List.append_assoc]
    · rw [hcall, htwice, hearly]
      show (((c.log.append early).append [c.contextUpdate label₁]).append late).append
        [c.contextUpdate (labels.foldl Label.join label₁)] = _
      simp only [EventLog.append_append, List.append_assoc, List.cons_append, List.nil_append]

theorem event_context_accumulates (config : Config) (ops : List Operation) (hpc : ((ofConfig config).run ops).pc = .policy) :
    Accumulates ((ofConfig config).run ops) := by
  have drained := drained_run config ops
  have slotted := slotted_run config ops
  generalize (ofConfig config).run ops = c at hpc drained slotted
  refine ⟨drained.originLabels_kept, answers_originLabels slotted, ?_, ?_, ?_, ?_, ?_⟩
  · intro urls url
    have hpolicy : (c.originLabels urls).2.registry.isPolicyOrigin = c.registry.isPolicyOrigin := by
      rw [registry_originLabels, isPolicyOrigin_lookups]
    rw [← hpolicy]
    exact (slotted_originLabels slotted urls).isPublic_getLabel_iff
  · exact fun urls hnone => drained.setEventContext_of_nonePublic hpc hnone
  · intro before url rest hnone hpublic
    have hkept := (drained.originLabels before).originLabel_of_public (slotted_originLabels slotted before) hpublic
    rw [drained.setEventContext_eq hpc, accumulate_of_public hnone hpublic, hkept]
  · exact fun first second hnone => drained.splits hpc hnone
  · intro urls
    obtain ⟨found, -, hfound⟩ := accumulate_looks_up c c.globals.eventContextLabel urls
    obtain ⟨new, hnew⟩ := drained.originLabels_kept found
    rw [drained.setEventContext_eq hpc, hfound, hnew]
    exact ⟨_, _, _, rfl⟩

/-- In the manifest of a policy origin. -/
theorem event_context_accumulates_manifest :
    let c := (ofConfig { policyOrigins := ["p"] }).run [.hook (.enterScript "p"), .setEventContext ["a"]]
    c.pc = .policy ∧ Accumulates c :=
  ⟨by decide +kernel, event_context_accumulates _ _ (by decide +kernel)⟩

example :
    let c := (ofConfig { policyOrigins := ["p"] }).run [.hook (.enterScript "p"), .setEventContext ["a"]]
    (c.setEventContext ["b", "a", "p"]).1 = .ok (((Label.ofSlot 3).join (.ofSlot 4)).join .policy) ∧
      (c.setEventContext ["b", "null", "d"]).1 = .ok .bottom ∧
      (c.setEventContext ["b", "null", "d"]).2.registry = (c.setEventContext ["b"]).2.registry := by
  decide +kernel

end Context
end InfoFlow

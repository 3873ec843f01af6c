import InfoFlow.Proofs.Control
import InfoFlow.Proofs.Locality
import InfoFlow.Proofs.Sources

/-! # Scripts and their regions

Every running script has a frame that ends at `Location.scriptExit`, and the regions opened while it is
the innermost one stand above that frame. Hooks that do not name that location themselves keep this
order, however scripts start one another, throw and leave regions open. -/

namespace InfoFlow

def Step.labels : Step → List Label
  | .branch label _ _ | .call label _ _ | .loopHeader label _ | .throwException label | .returnValue label
  | .join label => [label]
  | .write existing value => [existing, value]
  | .enterScript _ | .exitScript | .exceptionRegion _ | .reach _ => []

def Step.location? : Step → Option Location
  | .branch _ location _ | .call _ location _ | .loopHeader _ location | .exceptionRegion location
  | .reach location => some location
  | _ => none

namespace Stack

variable {top outer : Frame} {rest : List Frame}

theorem leaveScript_of_ne (h : top.exit ≠ .scriptExit) :
    leaveScript ⟨top, outer :: rest⟩ = leaveScript ⟨outer, rest⟩ := by
  simp [leaveScript, leaveWhile, h]

theorem leaveScript_of_eq (h : top.exit = .scriptExit) : leaveScript ⟨top, outer :: rest⟩ = ⟨outer, rest⟩ := by
  simp [leaveScript, leaveWhile, h, leave, pop?]

theorem depth_leaveScript_le : (leaveScript ⟨top, outer :: rest⟩).depth ≤ rest.length := by
  by_cases h : top.exit = .scriptExit
  · rw [leaveScript_of_eq h]
    exact Nat.le_refl _
  · rw [leaveScript_of_ne h]
    exact Nat.le_trans (depth_leave_le _) (depth_leaveWhile_le _ outer rest)

end Stack

/-- The frames of a stack down to a root frame that ends at `exit`, stands on `base` and belongs to the
scripts `outer`. Above it are the frames of the scripts started since, each below its own regions. The
label of each frame is related by `P` to the script that it belongs to. -/
inductive Nested (P : Option String → Label → Prop) (exit : Location) (base : List Frame)
    (outer : List String) : List Frame → List String → Prop where
  | root {f : Frame} : f.exit = exit → P outer.head? f.label → Nested P exit base outer (f :: base) outer
  | script {f : Frame} {frames : List Frame} {url : String} {scripts : List String} :
      f.exit = .scriptExit → P (some url) f.label → Nested P exit base outer frames scripts →
      Nested P exit base outer (f :: frames) (url :: scripts)
  | region {f : Frame} {frames : List Frame} {scripts : List String} :
      f.exit ≠ .scriptExit → P scripts.head? f.label → Nested P exit base outer frames scripts →
      Nested P exit base outer (f :: frames) scripts

namespace Nested

variable {P : Option String → Label → Prop} {exit : Location} {base : List Frame} {outer : List String}
  {frames below : List Frame} {top : Frame} {scripts : List String} {url : String}

theorem mono {Q : Option String → Label → Prop} (hPQ : ∀ owner label, P owner label → Q owner label)
    (h : Nested P exit base outer frames scripts) : Nested Q exit base outer frames scripts := by
  induction h with
  | root hexit hlabel => exact .root hexit (hPQ _ _ hlabel)
  | script hexit hlabel _ ih => exact .script hexit (hPQ _ _ hlabel) ih
  | region hexit hlabel _ ih => exact .region hexit (hPQ _ _ hlabel) ih

theorem length_lt (h : Nested P exit base outer frames scripts) : base.length < frames.length := by
  induction h with
  | root => exact Nat.lt_succ_self _
  | script _ _ _ ih => exact Nat.lt_succ_of_lt ih
  | region _ _ _ ih => exact Nat.lt_succ_of_lt ih

theorem outer_suffix (h : Nested P exit base outer frames scripts) : outer <:+ scripts := by
  induction h with
  | root => exact List.suffix_rfl
  | script _ _ _ ih => exact ih.trans (List.suffix_cons _ _)
  | region _ _ _ ih => exact ih

theorem label (h : Nested P exit base outer (top :: below) scripts) : P scripts.head? top.label := by
  cases h with
  | root _ hlabel => exact hlabel
  | script _ hlabel _ => exact hlabel
  | region _ hlabel _ => exact hlabel

/-- The head frame may be replaced as long as it ends where it did. -/
theorem replaceTop {f : Frame} (h : Nested P exit base outer (top :: below) scripts) (hexit : f.exit = top.exit)
    (hlabel : P scripts.head? f.label) : Nested P exit base outer (f :: below) scripts := by
  cases h with
  | root htop _ => exact .root (hexit.trans htop) hlabel
  | script htop _ hbelow => exact .script (hexit.trans htop) hlabel hbelow
  | region htop _ hbelow => exact .region (hexit ▸ htop) hlabel hbelow

/-- Leaving regions that are no scripts' frames does not end a script, if the root stays: because it is a
script's frame itself, or because the stack does not get so short. -/
theorem leaveWhile {p : Frame → Bool} (hp : ∀ f, p f = true → f.exit ≠ .scriptExit)
    (h : Nested P exit base outer (top :: below) scripts)
    (hroot : exit = .scriptExit ∨ base.length ≤ (Stack.leaveWhile p top below).depth) :
    Nested P exit base outer
      ((Stack.leaveWhile p top below).top :: (Stack.leaveWhile p top below).below) scripts := by
  induction below generalizing top scripts with
  | nil => exact h
  | cons next rest ih =>
    by_cases htop : p top = true
    · simp only [Stack.leaveWhile, htop, if_true] at hroot ⊢
      cases h with
      | root hexit _ =>
        rcases hroot with hscript | hdepth
        · exact absurd (hexit.trans hscript) (hp top htop)
        · exact absurd (Nat.le_trans hdepth (Stack.depth_leaveWhile_le p next rest)) (Nat.not_succ_le_self _)
      | script hexit _ _ => exact absurd hexit (hp top htop)
      | region _ _ hbelow => exact ih hbelow hroot
    · simpa only [Stack.leaveWhile, htop, Bool.false_eq_true, if_false] using h

/-- The end of a script leaves the scripts around it, if the root stays: because further scripts were
started since, or because the stack does not get so short. -/
theorem leaveScript (h : Nested P exit base outer (top :: below) (url :: scripts))
    (hbase : base = [] → outer = [])
    (hroot : outer.length ≤ scripts.length ∨ base.length ≤ (Stack.leaveScript ⟨top, below⟩).depth) :
    Nested P exit base outer
      ((Stack.leaveScript ⟨top, below⟩).top :: (Stack.leaveScript ⟨top, below⟩).below) scripts := by
  induction below generalizing top with
  | nil =>
    cases h with
    | root => exact absurd (hbase rfl) (List.cons_ne_nil _ _)
    | script _ _ hbelow => exact absurd hbelow.length_lt (Nat.not_lt_zero _)
    | region _ _ hbelow => exact absurd hbelow.length_lt (Nat.not_lt_zero _)
  | cons next rest ih =>
    cases h with
    | root =>
      rcases hroot with hlength | hdepth
      · exact absurd hlength (Nat.not_succ_le_self _)
      · exact absurd (Nat.le_trans hdepth Stack.depth_leaveScript_le) (Nat.not_succ_le_self _)
    | script hexit _ hbelow =>
      rw [Stack.leaveScript_of_eq hexit]
      exact hbelow
    | region hexit _ hbelow =>
      rw [Stack.leaveScript_of_ne hexit] at hroot ⊢
      exact ih hbelow hroot

/-- Without further scripts the frames above a root that is a script's frame are regions, and the end of
the script leaves exactly its base. -/
theorem leaveScript_root (h : Nested P .scriptExit base outer (top :: below) scripts)
    (hscripts : scripts.length = outer.length) {next : Frame} {rest : List Frame} (hbase : base = next :: rest) :
    scripts = outer ∧ Stack.leaveScript ⟨top, below⟩ = ⟨next, rest⟩ := by
  induction below generalizing top with
  | nil =>
    have hlength := h.length_lt
    simp [hbase] at hlength
  | cons f below ih =>
    cases h with
    | root hexit _ =>
      injection hbase with hf hbelow
      subst hf hbelow
      exact ⟨rfl, Stack.leaveScript_of_eq hexit⟩
    | script _ _ hbelow =>
      have hlength := hbelow.outer_suffix.length_le
      simp only [List.length_cons] at hscripts
      omega
    | region hexit _ hbelow =>
      rw [Stack.leaveScript_of_ne hexit]
      exact ih hbelow

end Nested

/-! ### Hooks -/

/-- What relates the labels of frames to scripts and is kept by the hooks: it holds of joins, of the labels
without the policy source, and of any label in a privileged script. -/
structure Ownership (privileged : String → Bool) (P : Option String → Label → Prop) : Prop where
  join : ∀ {owner : Option String} {a b : Label}, P owner a → P owner b → P owner (a.join b)
  bottom : ∀ owner, P owner .bottom
  stripped : ∀ (owner : Option String) (label : Label), P owner (label.without .policy)
  privileged : ∀ (url : String) (label : Label), privileged url = true → P (some url) label

namespace Control

variable {privileged : String → Bool} {P : Option String → Label → Prop} {exit : Location} {base : List Frame}
  {outer : List String} {k : Control}

def NestedIn (P : Option String → Label → Prop) (exit : Location) (base : List Frame) (outer : List String)
    (k : Control) : Prop :=
  Nested P exit base outer (k.stack.top :: k.stack.below) k.scripts

namespace NestedIn

theorem push (own : Ownership privileged P) (h : k.NestedIn P exit base outer) {r : Region}
    (hexit : r.exit ≠ .scriptExit) (hlabel : P k.scripts.head? r.label) :
    (k.onStack (·.push r)).NestedIn P exit base outer :=
  Nested.region hexit (own.join (Nested.label h) hlabel) h

theorem join (own : Ownership privileged P) (h : k.NestedIn P exit base outer) {label : Label}
    (hlabel : P k.scripts.head? label) : (k.onStack (·.join label)).NestedIn P exit base outer :=
  Nested.replaceTop h rfl (own.join (Nested.label h) hlabel)

theorem enterScript (own : Ownership privileged P) (h : k.NestedIn P exit base outer) (url : String) :
    (k.enterScript privileged url).NestedIn P exit base outer := by
  unfold Control.enterScript
  cases hurl : privileged url with
  | true => exact Nested.script rfl (own.privileged url _ hurl) h
  | false => exact Nested.script rfl (own.join (own.stripped _ _) (own.bottom _)) h

theorem exitScript (h : k.NestedIn P exit base outer) (hbase : base = [] → outer = [])
    (hroot : outer.length < k.scripts.length ∨ base.length ≤ k.exitScript.stack.depth) :
    k.exitScript.NestedIn P exit base outer := by
  obtain ⟨s, scripts⟩ := k
  cases scripts with
  | nil => exact h
  | cons url scripts => exact Nested.leaveScript h hbase (hroot.imp Nat.le_of_lt_succ id)

theorem reach (h : k.NestedIn P exit base outer) {location : Location} (hlocation : location ≠ .scriptExit)
    (hroot : exit = .scriptExit ∨ base.length ≤ (k.stack.closeAt location).depth) :
    (k.onStack (·.closeAt location)).NestedIn P exit base outer := by
  refine Nested.leaveWhile (fun f hf => ?_) h hroot
  rw [beq_iff_eq.mp hf]
  exact hlocation

theorem throwException (own : Ownership privileged P) (h : k.NestedIn P exit base outer) {exception : Label}
    (hlabel : P k.scripts.head? exception)
    (hroot : exit = .scriptExit ∨ base.length ≤ (k.stack.throwException exception).depth) :
    (k.onStack (·.throwException exception)).NestedIn P exit base outer := by
  rw [Stack.depth_throwException] at hroot
  have hunwound : (k.onStack (·.unwind)).NestedIn P exit base outer := by
    refine Nested.leaveWhile (fun f hf hscript => ?_) h hroot
    simp [Stack.stopsUnwinding, hscript] at hf
  show NestedIn P exit base outer ⟨k.stack.throwException exception, k.scripts⟩
  unfold Stack.throwException
  split
  · exact Nested.replaceTop hunwound rfl (own.join (Nested.label hunwound) (own.join (Nested.label h) hlabel))
  · exact hunwound

/-- At the depth of the root there is nothing but the root. -/
theorem eq_root (h : k.NestedIn P exit base outer) (hdepth : k.stack.depth = base.length) :
    ∃ f : Frame, f.exit = exit ∧ k = ⟨⟨f, base⟩, outer⟩ := by
  obtain ⟨⟨top, below⟩, scripts⟩ := k
  cases h with
  | root hexit _ => exact ⟨top, hexit, rfl⟩
  | script _ _ hbelow => exact absurd hdepth (Nat.ne_of_gt hbelow.length_lt)
  | region _ _ hbelow => exact absurd hdepth (Nat.ne_of_gt hbelow.length_lt)

/-- A hook that does not name the end of scripts keeps the nesting, if the root stays. -/
theorem step (own : Ownership privileged P) (h : k.NestedIn P exit base outer) (hbase : base = [] → outer = [])
    {step : Step} (hlabels : ∀ label ∈ step.labels, ∀ owner, P owner label)
    (hlocation : step.location? ≠ some .scriptExit)
    (hroot : (exit = .scriptExit ∧ (step = .exitScript → outer.length < k.scripts.length)) ∨
      base.length ≤ (k.step privileged step).stack.depth) :
    (k.step privileged step).NestedIn P exit base outer := by
  have avoids {location : Location} (h : step.location? = some location) : location ≠ .scriptExit := by
    rintro rfl
    exact hlocation h
  cases step with
  | enterScript url => exact h.enterScript own url
  | exitScript => exact h.exitScript hbase (hroot.imp (fun hr => hr.2 rfl) id)
  | branch condition exit guardRegister =>
    exact h.push own (avoids rfl) (hlabels condition List.mem_cons_self _)
  | call callee returnsTo functionHandler =>
    exact h.push own (avoids rfl) (hlabels callee List.mem_cons_self _)
  | loopHeader condition exit =>
    have hcondition := hlabels condition List.mem_cons_self k.scripts.head?
    simp only [Control.step, Control.loopHeader]
    split
    · exact h.join own hcondition
    · exact h.push own (avoids rfl) hcondition
  | exceptionRegion exit => exact h.push own (avoids rfl) (own.bottom _)
  | reach location => exact h.reach (avoids rfl) (hroot.imp And.left id)
  | throwException exception =>
    exact h.throwException own (hlabels exception List.mem_cons_self _) (hroot.imp And.left id)
  | returnValue value => exact h
  | join label => exact h.join own (hlabels label List.mem_cons_self _)
  | write existing value => exact h

end NestedIn
end Control
end InfoFlow

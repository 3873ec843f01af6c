import Mathlib.Data.List.Nodup
import InfoFlow.Proofs.Json.Alike
import InfoFlow.Saved.Steps

/-! # Traces are read back

A step has many renderings: its members may stand in any order, the name of the hook anywhere among them, or the step is
the array of their values, with the hook first. Arguments that hold their default may be left out. Strings and keys may
be escaped in any way, and a label may be an object or an array too. Whatever the rendering and the blanks in the text,
the same steps are read. The text under which a trace is saved is one of these texts. -/

namespace InfoFlow.Step

open Json (Alike Fields Finds Shallow record fields?)

variable {step : Step} {j : Json} {given found : Fields} {name : String}

/-! ### Renderings -/

/-- The arguments that may be left out because they hold their default. -/
def omittable : Step → List String
  | .branch _ _ none => ["register"]
  | .call _ _ false => ["has_exception_handler"]
  | .throwException exception => if exception = .bottom then ["exception"] else []
  | _ => []

/-- The members tell the arguments of a step; those behind them are left out. -/
def Tells (step : Step) (given : Fields) : Prop :=
  ∃ missing, step.arguments = given ++ missing ∧ ∀ a ∈ missing, a.1 ∈ step.omittable

/-- A value that renders a step says the same as the record of the hook's name and of arguments that tell the others. -/
def Renders (step : Step) (j : Json) : Prop :=
  ∃ given, step.Tells given ∧ Alike (record ((tag, .ofString step.hook) :: given)) j

/-! ### Arguments -/

theorem ne_tag_of_mem_arguments (step : Step) : ∀ a ∈ step.arguments, a.1 ≠ tag := by
  cases step <;> simp [arguments, tag]

theorem nodup_arguments (step : Step) : (step.arguments.map Prod.fst).Nodup := by
  cases step <;> simp [arguments]

@[simp] theorem mem_omittable_branch {condition : Label} {exit : Location} {guardRegister : Option Register} :
    name ∈ (branch condition exit guardRegister).omittable ↔ name = "register" ∧ guardRegister = none := by
  cases guardRegister <;> simp [omittable]

@[simp] theorem mem_omittable_call {callee : Label} {returnsTo : Location} {functionHandler : Bool} :
    name ∈ (call callee returnsTo functionHandler).omittable ↔
      name = "has_exception_handler" ∧ functionHandler = false := by
  cases functionHandler <;> simp [omittable]

@[simp] theorem mem_omittable_throw {exception : Label} :
    name ∈ (throwException exception).omittable ↔ name = "exception" ∧ exception = .bottom := by
  by_cases h : exception = .bottom <;> simp [omittable, h]

namespace Tells

variable {α : Type} [Saved α] [ReadsAlike α] {a : α}

/-- An argument is found under its name, unless it is left out. -/
theorem find? (h : step.Tells given) (hfound : Finds given found) {v : Json} (ha : (name, v) ∈ step.arguments) :
    (name, v) ∈ given ∨ found.find? name = none ∧ name ∈ step.omittable := by
  obtain ⟨missing, hsplit, homitted⟩ := h
  have hnodup := step.nodup_arguments
  rw [hsplit] at ha hnodup
  rw [List.map_append, List.nodup_append] at hnodup
  rcases List.mem_append.mp ha with hgiven | hmissing
  · exact .inl hgiven
  · refine .inr ⟨hfound.missing name fun hname => ?_, homitted _ hmissing⟩
    exact hnodup.2.2 name hname name (List.mem_map_of_mem hmissing) rfl

theorem get? (h : step.Tells given) (hfound : Finds given found) (ha : (name, InfoFlow.toJson a) ∈ step.arguments)
    (habsent : name ∈ step.omittable → Saved.absent? = some a) : found.get? name = some a := by
  rcases h.find? hfound ha with hgiven | ⟨hnone, homitted⟩
  · exact hfound.get? hgiven
  · rw [Fields.get?, hnone]
    exact habsent homitted

theorem getD? (h : step.Tells given) (hfound : Finds given found) (ha : (name, InfoFlow.toJson a) ∈ step.arguments)
    {default : α} (hdefault : name ∈ step.omittable → default = a) : found.getD? name default = some a := by
  rcases h.find? hfound ha with hgiven | ⟨hnone, homitted⟩
  · obtain ⟨v, hv, halike⟩ := hfound.given _ hgiven
    rw [Fields.getD?, hv]
    exact ReadsAlike.ofJson?_of_alike halike
  · rw [Fields.getD?, hnone, hdefault homitted]

theorem fields? (h : step.Tells given) (halike : Alike (record given) j) (shape : List Json.Field)
    (hshape : shape.map Json.Field.name = step.arguments.map Prod.fst)
    (htrailing : ∀ field ∈ shape, field.name ∈ step.omittable → field.trailing = true) :
    ∃ found, Json.fields? shape j = some found ∧ Finds given found := by
  obtain ⟨missing, hsplit, homitted⟩ := h
  have hnodup := step.nodup_arguments
  rw [hsplit, List.map_append] at hshape hnodup
  refine halike.fields? hshape (List.all_eq_true.mpr fun field hfield => ?_) (List.nodup_append.mp hnodup).1
  have hname : field.name ∈ missing.map Prod.fst := by
    have hdrop := congrArg (List.drop (given.map Prod.fst).length) hshape
    rw [List.drop_left, List.length_map, ← List.map_drop] at hdrop
    exact hdrop ▸ List.mem_map_of_mem hfield
  obtain ⟨a, ha, hname⟩ := List.mem_map.mp hname
  exact htrailing field (List.mem_of_mem_drop hfield) (hname ▸ homitted a ha)

/-- The step is read from its arguments. -/
theorem ofArguments? (h : step.Tells given) (halike : Alike (record given) j) :
    Step.ofArguments? step.hook j = some step := by
  cases step with
  | enterScript url =>
    obtain ⟨found, hfields, hfound⟩ := h.fields? halike [⟨"url", false⟩] rfl (by simp [omittable])
    have hurl : found.get? "url" = some url := h.get? hfound (by simp [arguments]) nofun
    simp [Step.ofArguments?, hook, hfields, hurl]
  | exitScript =>
    obtain ⟨found, hfields, -⟩ := h.fields? halike [] rfl (by simp [omittable])
    simp [Step.ofArguments?, hook, hfields]
  | branch condition exit guardRegister =>
    obtain ⟨found, hfields, hfound⟩ :=
      h.fields? halike [⟨"condition", false⟩, ⟨"post_dominator", false⟩, ⟨"register", true⟩] rfl (by simp)
    have hcondition : found.get? "condition" = some condition :=
      h.get? hfound (by simp [arguments]) (by simp)
    have hexit : found.get? "post_dominator" = some exit :=
      h.get? hfound (by simp [arguments]) (by simp)
    -- A branch that nothing guards is what a branch without a register stands for.
    have hregister : found.get? "register" = some guardRegister :=
      h.get? hfound (by simp [arguments]) (by simp +contextual [Saved.absent?])
    simp [Step.ofArguments?, hook, hfields, hcondition, hexit, hregister]
  | call callee returnsTo functionHandler =>
    obtain ⟨found, hfields, hfound⟩ :=
      h.fields? halike [⟨"callee", false⟩, ⟨"return_location", false⟩, ⟨"has_exception_handler", true⟩] rfl (by simp)
    have hcallee : found.get? "callee" = some callee :=
      h.get? hfound (by simp [arguments]) (by simp)
    have hreturns : found.get? "return_location" = some returnsTo :=
      h.get? hfound (by simp [arguments]) (by simp)
    have hhandler : found.getD? "has_exception_handler" false = some functionHandler :=
      h.getD? hfound (by simp [arguments]) (by simp +contextual)
    simp [Step.ofArguments?, hook, hfields, hcallee, hreturns, hhandler]
  | loopHeader condition exit =>
    obtain ⟨found, hfields, hfound⟩ :=
      h.fields? halike [⟨"condition", false⟩, ⟨"exit_location", false⟩] rfl (by simp [omittable])
    have hcondition : found.get? "condition" = some condition := h.get? hfound (by simp [arguments]) nofun
    have hexit : found.get? "exit_location" = some exit := h.get? hfound (by simp [arguments]) nofun
    simp [Step.ofArguments?, hook, hfields, hcondition, hexit]
  | exceptionRegion exit =>
    obtain ⟨found, hfields, hfound⟩ := h.fields? halike [⟨"post_dominator", false⟩] rfl (by simp [omittable])
    have hexit : found.get? "post_dominator" = some exit := h.get? hfound (by simp [arguments]) nofun
    simp [Step.ofArguments?, hook, hfields, hexit]
  | reach location =>
    obtain ⟨found, hfields, hfound⟩ := h.fields? halike [⟨"location", false⟩] rfl (by simp [omittable])
    have hlocation : found.get? "location" = some location := h.get? hfound (by simp [arguments]) nofun
    simp [Step.ofArguments?, hook, hfields, hlocation]
  | throwException exception =>
    obtain ⟨found, hfields, hfound⟩ := h.fields? halike [⟨"exception", true⟩] rfl (by simp)
    have hexception : found.getD? "exception" Label.bottom = some exception :=
      h.getD? hfound (by simp [arguments]) (by simp +contextual)
    simp [Step.ofArguments?, hook, hfields, hexception]
  | returnValue value =>
    obtain ⟨found, hfields, hfound⟩ := h.fields? halike [⟨"value", false⟩] rfl (by simp [omittable])
    have hvalue : found.get? "value" = some value := h.get? hfound (by simp [arguments]) nofun
    simp [Step.ofArguments?, hook, hfields, hvalue]
  | join label =>
    obtain ⟨found, hfields, hfound⟩ := h.fields? halike [⟨"label", false⟩] rfl (by simp [omittable])
    have hlabel : found.get? "label" = some label := h.get? hfound (by simp [arguments]) nofun
    simp [Step.ofArguments?, hook, hfields, hlabel]
  | write existing value =>
    obtain ⟨found, hfields, hfound⟩ :=
      h.fields? halike [⟨"existing", false⟩, ⟨"value", false⟩] rfl (by simp [omittable])
    have hexisting : found.get? "existing" = some existing := h.get? hfound (by simp [arguments]) nofun
    have hvalue : found.get? "value" = some value := h.get? hfound (by simp [arguments]) nofun
    simp [Step.ofArguments?, hook, hfields, hexisting, hvalue]

end Tells

/-! ### The name of the hook -/

/-- An object that names the hook once is parted into the name and the other members. -/
theorem untag?_object {raws others : List (List Char × Json)} {key : List Char} {value : Json}
    (hkey : Json.unescape key = some tag.toList) (hvalue : value.string? = some name)
    (hplain : ∀ m ∈ others, Json.unescape m.1 ≠ some tag.toList) (hperm : raws.Perm ((key, value) :: others)) :
    ∃ rest, Step.untag? (.object raws) = some (name, .object rest) ∧ rest.Perm others := by
  have hnone : (others.filter fun m => Json.unescape m.1 == some tag.toList) = [] :=
    List.filter_eq_nil_iff.mpr fun m hm => mt beq_iff_eq.mp (hplain m hm)
  have hall : (others.filter fun m => !(Json.unescape m.1 == some tag.toList)) = others :=
    List.filter_eq_self.mpr fun m hm => by simpa using hplain m hm
  have hnames : (raws.filter fun m => Json.unescape m.1 == some tag.toList) = [(key, value)] := by
    have hfilter := hperm.filter fun m => Json.unescape m.1 == some tag.toList
    simpa [hkey, hnone] using hfilter
  have hrest : (raws.filter fun m => !(Json.unescape m.1 == some tag.toList)).Perm others := by
    have hfilter := hperm.filter fun m => !(Json.unescape m.1 == some tag.toList)
    simpa [hkey, hall] using hfilter
  refine ⟨_, ?_, hrest⟩
  simp only [Step.untag?, List.partition_eq_filter_filter, Function.comp_def, hnames, hvalue, Option.map_some]

/-- In a value that says the same as the hook's name and its arguments, both are found. -/
theorem untag?_of_alike (h : Alike (record ((tag, .ofString name) :: given)) j) (hne : ∀ a ∈ given, a.1 ≠ tag) :
    ∃ arguments, Step.untag? j = some (name, arguments) ∧ Alike (record given) arguments := by
  rcases h.exists_cons with ⟨raws, key, value, others, rfl, hkey, hvalue, hothers, hperm⟩ | hrow
  · have hplain : ∀ m ∈ others, Json.unescape m.1 ≠ some tag.toList := by
      intro m hm
      obtain ⟨_, hraw, hsame⟩ := Json.exists_of_forall₂ hothers.flip hm
      obtain ⟨a, ha, rfl⟩ := List.mem_map.mp hraw
      cases hsame with
      | member hname hother =>
        rw [Json.unescape_escape] at hname
        rw [hother, ← hname, ne_eq, Option.some_inj, String.toList_inj]
        exact hne a ha
    obtain ⟨rest, huntag, hrest⟩ := untag?_object hkey hvalue.string?_eq hplain hperm
    exact ⟨.object rest, huntag, .object hothers hrest⟩
  · obtain ⟨_, items, rfl, hvalue, hitems⟩ := hrow
    exact ⟨.array items, by rw [Step.untag?, hvalue.string?_eq, Option.map_some], hitems⟩

/-! ### Values that are set aside -/

theorem shallow_text (s : String) : (InfoFlow.toJson s).Shallow 1 := (Json.shallow_ofString s).mono (Nat.zero_le 1)

theorem shallow_flag (b : Bool) : (InfoFlow.toJson b).Shallow 1 := (Json.shallow_bool b).mono (Nat.zero_le 1)

theorem shallow_label (l : Label) : (InfoFlow.toJson l).Shallow 1 := by
  refine Json.shallow_record (List.forall_mem_cons.mpr ⟨?_, List.forall_mem_singleton.mpr ?_⟩)
  · exact Json.shallow_ofNat l.sources.isLt
  · exact Json.shallow_bool l.deferred

theorem shallow_location (location : Location) : (InfoFlow.toJson location).Shallow 1 := by
  have hlow := location.le_toInt
  have hhigh := location.toInt_lt
  have hsize : UInt64.size = 2 ^ 64 := rfl
  exact (Json.shallow_ofInt (by omega)).mono (Nat.zero_le 1)

theorem shallow_register (r : Option Register) : (InfoFlow.toJson r).Shallow 1 := by
  cases r with
  | none => exact Json.shallow_null.mono (Nat.zero_le 1)
  | some r =>
    have hindex := r.index.toNat_lt
    have hsize : UInt64.size = 2 ^ 64 := rfl
    exact (Json.shallow_ofNat (by omega)).mono (Nat.zero_le 1)

theorem shallow_arguments (step : Step) : ∀ a ∈ step.arguments, a.2.Shallow 1 := by
  cases step <;> simp [arguments, shallow_text, shallow_flag, shallow_label, shallow_location, shallow_register]

theorem shallow_toJson (step : Step) : step.toJson.Shallow 2 := by
  refine Json.shallow_record (List.forall_mem_cons.mpr ⟨?_, step.shallow_arguments⟩)
  exact (Json.shallow_ofString _).mono (Nat.zero_le 1)

theorem renders_toJson (step : Step) : step.Renders step.toJson :=
  ⟨step.arguments, ⟨[], (List.append_nil _).symm, nofun⟩, Json.alike_self step.shallow_toJson.isMeaningful⟩

theorem Tells.mem_arguments (h : step.Tells given) : ∀ a ∈ given, a ∈ step.arguments := by
  obtain ⟨missing, hsplit, -⟩ := h
  exact fun a ha => hsplit ▸ List.mem_append_left missing ha

theorem Renders.isWhole (h : step.Renders j) : j.isWhole 1 = true := by
  obtain ⟨given, htells, halike⟩ := h
  rw [halike.isWhole_eq]
  refine (Json.shallow_record fun m hm => ?_).isWhole (show 2 + 1 ≤ Json.maxDepth by decide)
  rcases List.mem_cons.mp hm with rfl | hm
  · exact (Json.shallow_ofString _).mono (Nat.zero_le 1)
  · exact step.shallow_arguments m (htells.mem_arguments m hm)

/-- A step is read from each of its renderings. -/
theorem Renders.ofJson? (h : step.Renders j) : Step.ofJson? 1 j = some step := by
  have hwhole := h.isWhole
  obtain ⟨given, htells, halike⟩ := h
  obtain ⟨arguments, huntag, hgiven⟩ :=
    untag?_of_alike halike fun a ha => step.ne_tag_of_mem_arguments a (htells.mem_arguments a ha)
  rw [Step.ofJson?, if_pos hwhole, huntag, Option.bind_some]
  exact htells.ofArguments? hgiven

theorem mapM_ofJson?_of_renders {steps : List Step} {items : List Json} (h : List.Forall₂ Renders steps items) :
    items.mapM (Step.ofJson? 1) = some steps := by
  induction h with
  | nil => rfl
  | cons hstep _ ih => simp [hstep.ofJson?, ih]

/-! ### Texts -/

/-- A text that is an array of renderings of the steps, with blanks wherever they may stand. -/
def WritesTrace (steps : List Step) (text : String) : Prop :=
  ∃ (items : List Json) (body : List Char) (before after : Json.Gap),
    List.Forall₂ Renders steps items ∧ Json.Writes (.array items) body ∧
      text.toList = before.chars ++ body ++ after.chars

theorem loadTrace?_of_writesTrace {steps : List Step} {text : String} (h : WritesTrace steps text) :
    loadTrace? text = some steps := by
  obtain ⟨items, body, before, after, hrenders, hwrites, htext⟩ := h
  rw [loadTrace?, htext, hwrites.parse before after, Option.bind_some, traceOfJson?,
    mapM_ofJson?_of_renders hrenders]

theorem proper_toJson (step : Step) : step.toJson.Proper := by
  refine Json.proper_record (List.forall_mem_cons.mpr ⟨Json.proper_ofString _, ?_⟩)
  cases step <;> simp [arguments]

/-- The text under which a trace is saved writes it in one of the ways. -/
theorem writesTrace_saveTrace (steps : List Step) : WritesTrace steps (saveTrace steps) := by
  have hproper : (Json.array (steps.map toJson)).Proper :=
    .array (List.forall_mem_map.mpr fun step _ => proper_toJson step)
  refine ⟨steps.map toJson, _, .empty, .empty, ?_, hproper.writes_render, ?_⟩
  · exact List.forall₂_map_right_iff.mpr (List.forall₂_same.mpr fun step _ => step.renders_toJson)
  · simp [saveTrace, save, Json.text, Json.Gap.empty, InfoFlow.toJson]

/-- A saved trace is read back, and so is every other text that writes it. -/
theorem traces_read_back (steps : List Step) :
    loadTrace? (saveTrace steps) = some steps ∧ ∀ text, WritesTrace steps text → loadTrace? text = some steps :=
  ⟨loadTrace?_of_writesTrace (writesTrace_saveTrace steps), fun _ => loadTrace?_of_writesTrace⟩

/-- The hook may be named between its arguments and by an escaped key, a label may turn its members round, defaults may
be left out, and a step and its label may be arrays. -/
theorem traces_read_back_reordered :
    let steps : List Step := [.call .bottom 7 false, .throwException .bottom, .join .secret]
    let bottom := record [("deferred", InfoFlow.toJson false), ("value", InfoFlow.toJson (0 : UInt64))]
    let call := record
      [("return_location", InfoFlow.toJson (7 : Location)), (tag, .ofString "call"), ("callee", bottom)]
    let throw := Json.object [("\\u006Fp".toList, .ofString "throw")]
    let secret := Json.array [InfoFlow.toJson (2 : UInt64), InfoFlow.toJson false]
    let join := Json.array [.ofString "join", secret]
    let text := "\n" ++ (Json.array [call, throw, join]).text ++ " "
    WritesTrace steps text ∧ loadTrace? text = some steps := by
  intro steps bottom call throw secret join text
  have hname (s : String) : Alike (.ofString s) (.ofString s) := Json.alike_self (Json.shallow_ofString s).isMeaningful
  have hcall : Renders (.call .bottom 7 false) call := by
    have hbottom : Alike (InfoFlow.toJson Label.bottom) bottom :=
      Json.alike_record (.cons ⟨rfl, .number _⟩ (.cons ⟨rfl, .bool false⟩ .nil)) (.swap _ _ _)
    have hlocation : Alike (InfoFlow.toJson (7 : Location)) (InfoFlow.toJson (7 : Location)) := .number _
    have hmembers : List.Forall₂ Json.Same
        [(tag, .ofString "call"), ("callee", InfoFlow.toJson Label.bottom),
          ("return_location", InfoFlow.toJson (7 : Location))]
        [(tag, .ofString "call"), ("callee", bottom), ("return_location", InfoFlow.toJson (7 : Location))] :=
      .cons ⟨rfl, hname "call"⟩ (.cons ⟨rfl, hbottom⟩ (.cons ⟨rfl, hlocation⟩ .nil))
    refine ⟨[("callee", _), ("return_location", _)], ⟨[("has_exception_handler", _)], rfl, by simp⟩, ?_⟩
    exact Json.alike_record hmembers ((List.Perm.swap _ _ _).trans (.cons _ (.swap _ _ _)))
  have hkey : Json.unescape "\\u006Fp".toList = some tag.toList := by decide +kernel
  have hthrow : Renders (.throwException .bottom) throw := by
    refine ⟨[], ⟨[("exception", _)], rfl, by simp⟩, .object (.cons ?_ .nil) (.refl _)⟩
    exact .member (Json.unescape_escape tag.toList) hkey (hname "throw")
  have hjoin : Renders (.join .secret) join := by
    have hvalue {name : String} {v w : Json} (h : Alike v w) : Json.AlikeValue (Json.escape name.toList, v) w :=
      .value (Json.unescape_escape name.toList) h
    have hsecret : Alike (InfoFlow.toJson Label.secret) secret :=
      .row (.cons (hvalue (.number _)) (.cons (hvalue (.bool false)) .nil))
    refine ⟨[("label", _)], ⟨[], rfl, nofun⟩, ?_⟩
    exact .row (.cons (hvalue (hname "join")) (.cons (hvalue hsecret) .nil))
  have hproper : (Json.array [call, throw, join]).Proper := by
    have hbottom : bottom.Proper := Json.proper_record (by simp)
    have hsecret : secret.Proper := .array (by simp)
    refine .array (List.forall_mem_cons.mpr ⟨?_, List.forall_mem_cons.mpr ⟨?_, List.forall_mem_singleton.mpr ?_⟩⟩)
    · exact Json.proper_record (by simp [Json.proper_ofString, hbottom])
    · exact .object (List.forall_mem_singleton.mpr (Json.isRaw_of_unescape hkey))
        (List.forall_mem_singleton.mpr (Json.proper_ofString "throw"))
    · exact .array (by simp [Json.proper_ofString, hsecret])
  have hwrites : WritesTrace steps text := by
    refine ⟨[call, throw, join], _, ⟨['\n'], ?_⟩, ⟨[' '], ?_⟩, ?_, hproper.writes_render, ?_⟩
    · exact List.forall_mem_singleton.mpr rfl
    · exact List.forall_mem_singleton.mpr rfl
    · exact .cons hcall (.cons hthrow (.cons hjoin .nil))
    · simp [text, Json.text]
  exact ⟨hwrites, (traces_read_back steps).2 text hwrites⟩

end InfoFlow.Step

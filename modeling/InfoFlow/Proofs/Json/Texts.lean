import Mathlib.Data.List.DropRight
import InfoFlow.Json.Basic
import InfoFlow.Proofs.Json.Numbers
import InfoFlow.Proofs.Json.Strings

/-! # The texts of a JSON value

A value has many texts: blanks may stand around each of its parts. `Writes` says which texts are its texts, and
reading finds the value in every one of them. The compact text is the one without blanks. -/

namespace InfoFlow.Json

variable {j : Json} {body rest : List Char} {bound : Nat}

/-! ### Texts -/

/-- Blanks between the parts of a text. -/
structure Gap where
  chars : List Char
  blank : ∀ c ∈ chars, isBlank c = true

def Gap.empty : Gap := ⟨[], nofun⟩

/-- An item of an array with its text and the blanks around that. -/
structure Item where
  before : Gap
  value : Json
  body : List Char
  after : Gap

def Item.text (i : Item) : List Char := i.before.chars ++ i.body ++ i.after.chars

/-- A member of an object with its text; its value stands behind the colon like an item of an array. -/
structure Member where
  before : Gap
  key : List Char
  after : Gap
  item : Item

def Member.text (m : Member) : List Char :=
  m.before.chars ++ '"' :: m.key ++ '"' :: m.after.chars ++ ':' :: m.item.text

def Member.value (m : Member) : List Char × Json := (m.key, m.item.value)

/-- The text writes the value. No blanks stand around the text itself. -/
inductive Writes : Json → List Char → Prop where
  | null : Writes .null (render .null)
  | bool (b : Bool) : Writes (.bool b) (render (.bool b))
  | number {lexeme : List Char} : IsNumber lexeme → Writes (.number lexeme) lexeme
  | string {raw : List Char} : IsRaw raw → Writes (.string raw) ('"' :: raw ++ ['"'])
  | noItems (gap : Gap) : Writes (.array []) ('[' :: gap.chars ++ [']'])
  | items (items : List Item) : items ≠ [] → (∀ i ∈ items, Writes i.value i.body) →
      Writes (.array (items.map (·.value))) ('[' :: separated ',' (items.map (·.text)) ++ [']'])
  | noMembers (gap : Gap) : Writes (.object []) ('{' :: gap.chars ++ ['}'])
  | members (members : List Member) : members ≠ [] → (∀ m ∈ members, IsRaw m.key) →
      (∀ m ∈ members, Writes m.item.value m.item.body) →
      Writes (.object (members.map (·.value))) ('{' :: separated ',' (members.map (·.text)) ++ ['}'])

/-! ### Blanks -/

theorem skipBlanks_append (gap : Gap) (cs : List Char) : skipBlanks (gap.chars ++ cs) = skipBlanks cs :=
  List.dropWhile_append_of_pos gap.blank

theorem skipBlanks_cons {c : Char} (h : isBlank c = false) (cs : List Char) : skipBlanks (c :: cs) = c :: cs := by
  simp [skipBlanks, h]

theorem skipBlanks_gap (gap : Gap) : skipBlanks gap.chars = [] := by
  have h := skipBlanks_append gap []
  rwa [List.append_nil] at h

theorem not_continuesNumber_of_isBlank {c : Char} (h : isBlank c = true) : continuesNumber c = false := by
  simp only [isBlank, Bool.or_eq_true, beq_iff_eq] at h
  rcases h with ((rfl | rfl) | rfl) | rfl <;> rfl

/-- Blanks end a number. -/
theorem Ends.gap (h : Ends rest) (gap : Gap) : Ends (gap.chars ++ rest) := by
  obtain ⟨chars, blank⟩ := gap
  cases chars with
  | nil => exact h
  | cons c cs => exact ends_cons (not_continuesNumber_of_isBlank (blank c List.mem_cons_self))

theorem isBlank_of_startsNumber {c : Char} (h : startsNumber c = true) : isBlank c = false := by
  rw [← Bool.not_eq_true]
  intro hblank
  simp only [isBlank, Bool.or_eq_true, beq_iff_eq] at hblank
  rcases hblank with ((rfl | rfl) | rfl) | rfl <;> cases h

theorem ne_of_startsNumber {c d : Char} (h : startsNumber c = true) (hd : startsNumber d = false) : c ≠ d := by
  rintro rfl
  rw [h] at hd
  cases hd

/-- A value starts with a character that is no blank and no closing bracket. -/
theorem Writes.head (h : Writes j body) : ∃ c cs, body = c :: cs ∧ isBlank c = false ∧ c ≠ ']' := by
  cases h with
  | null => exact ⟨_, _, rfl, rfl, by decide⟩
  | bool b => cases b <;> exact ⟨_, _, rfl, rfl, by decide⟩
  | number hnumber =>
    obtain ⟨c, cs, hlexeme, hstart⟩ := hnumber.head
    exact ⟨c, cs, hlexeme, isBlank_of_startsNumber hstart, ne_of_startsNumber hstart rfl⟩
  | string _ => exact ⟨_, _, rfl, rfl, by decide⟩
  | noItems _ => exact ⟨_, _, rfl, rfl, by decide⟩
  | items _ _ _ => exact ⟨_, _, rfl, rfl, by decide⟩
  | noMembers _ => exact ⟨_, _, rfl, rfl, by decide⟩
  | members _ _ _ _ => exact ⟨_, _, rfl, rfl, by decide⟩

/-! ### Reading -/

/-- Reading finds the value in the text, whatever stands around it, if that does not continue a number. -/
def Reads (j : Json) (body : List Char) : Prop :=
  ∀ (gap : Gap) (bound : Nat) (rest : List Char), 2 * body.length ≤ bound → Ends rest →
    readValue bound (gap.chars ++ body ++ rest) = some (j, rest)

theorem Item.length_body_le (i : Item) : i.body.length ≤ i.text.length := by
  simp only [Item.text, List.length_append]
  omega

theorem Member.length_body_le (m : Member) : m.item.body.length ≤ m.text.length := by
  have h := m.item.length_body_le
  simp only [Member.text, List.length_append, List.length_cons]
  omega

theorem skipBlanks_mark {mark : Char} (h : isBlank mark = false) (gap : Gap) (rest : List Char) :
    skipBlanks (gap.chars ++ mark :: rest) = mark :: rest := by
  rw [skipBlanks_append, skipBlanks_cons h]

/-- An item is read up to the mark behind it. -/
theorem Reads.item {i : Item} (h : Reads i.value i.body) (hbound : 2 * i.body.length ≤ bound) {mark : Char}
    (hmark : continuesNumber mark = false) (rest : List Char) :
    readValue bound (i.text ++ mark :: rest) = some (i.value, i.after.chars ++ mark :: rest) := by
  have hread := h i.before bound (i.after.chars ++ mark :: rest) hbound (.gap (ends_cons hmark) _)
  rwa [Item.text, List.append_assoc]

theorem separated_cons {part : List Char} {parts : List (List Char)} (h : parts ≠ []) :
    separated ',' (part :: parts) = part ++ ',' :: separated ',' parts := by
  cases parts with
  | nil => exact absurd rfl h
  | cons => rfl

theorem readItems_of_reads {items : List Item} (hne : items ≠ []) (h : ∀ i ∈ items, Reads i.value i.body)
    (hbound : 2 * (separated ',' (items.map (·.text))).length < bound) (rest : List Char) :
    readItems bound (separated ',' (items.map (·.text)) ++ ']' :: rest) = some (items.map (·.value), rest) := by
  induction items generalizing bound with
  | nil => exact absurd rfl hne
  | cons i items ih =>
    obtain ⟨bound, rfl⟩ : ∃ b, bound = b + 1 := ⟨bound - 1, by omega⟩
    have hlength := i.length_body_le
    have hi := @(h i List.mem_cons_self).item bound
    by_cases hlast : items = []
    · subst hlast
      simp only [List.map_cons, List.map_nil, separated] at hbound ⊢
      have hread := hi (by omega) (show continuesNumber ']' = false from rfl) rest
      have hskip := skipBlanks_mark (show isBlank ']' = false from rfl) i.after rest
      simp [readItems, hread, hskip]
    · have hmore : items.map (·.text) ≠ [] := mt List.map_eq_nil_iff.mp hlast
      simp only [List.map_cons, separated_cons hmore, List.length_append, List.length_cons] at hbound ⊢
      have hrest := @ih bound hlast (fun x hx => h x (List.mem_cons_of_mem _ hx)) (by omega)
      have hread := hi (by omega) (show continuesNumber ',' = false from rfl)
      have hskip := skipBlanks_mark (show isBlank ',' = false from rfl) i.after
      simp [readItems, hread, hskip, hrest]

theorem readKey_of_isRaw {m : Member} (h : IsRaw m.key) (rest : List Char) :
    readKey (m.text ++ rest) = some (m.key, m.item.text ++ rest) := by
  have hquote := skipBlanks_mark (show isBlank '"' = false from rfl) m.before
  have hcolon := skipBlanks_mark (show isBlank ':' = false from rfl) m.after (m.item.text ++ rest)
  have hscan : scanString .plain (m.key ++ '"' :: (m.after.chars ++ ':' :: (m.item.text ++ rest))) =
      some (m.key, m.after.chars ++ ':' :: (m.item.text ++ rest)) := scanString_of_isRaw h
  simp only [Member.text, readKey, List.append_assoc, List.cons_append, hquote]
  simp [hscan, hcolon]

theorem readMembers_of_reads {members : List Member} (hne : members ≠ []) (hkeys : ∀ m ∈ members, IsRaw m.key)
    (h : ∀ m ∈ members, Reads m.item.value m.item.body)
    (hbound : 2 * (separated ',' (members.map (·.text))).length < bound) (rest : List Char) :
    readMembers bound (separated ',' (members.map (·.text)) ++ '}' :: rest) = some (members.map (·.value), rest) := by
  induction members generalizing bound with
  | nil => exact absurd rfl hne
  | cons m members ih =>
    obtain ⟨bound, rfl⟩ : ∃ b, bound = b + 1 := ⟨bound - 1, by omega⟩
    have hkey := readKey_of_isRaw (hkeys m List.mem_cons_self)
    have hlength := m.length_body_le
    have hm := @(h m List.mem_cons_self).item bound
    by_cases hlast : members = []
    · subst hlast
      simp only [List.map_cons, List.map_nil, separated] at hbound ⊢
      have hread := hm (by omega) (show continuesNumber '}' = false from rfl) rest
      have hskip := skipBlanks_mark (show isBlank '}' = false from rfl) m.item.after rest
      simp [readMembers, hkey, hread, hskip, Member.value]
    · have hmore : members.map (·.text) ≠ [] := mt List.map_eq_nil_iff.mp hlast
      simp only [List.map_cons, separated_cons hmore, List.length_append, List.length_cons] at hbound ⊢
      have hrest := @ih bound hlast (fun x hx => hkeys x (List.mem_cons_of_mem _ hx))
        (fun x hx => h x (List.mem_cons_of_mem _ hx)) (by omega)
      have hread := hm (by omega) (show continuesNumber ',' = false from rfl)
      have hskip := skipBlanks_mark (show isBlank ',' = false from rfl) m.item.after
      simp [readMembers, hkey, hread, hskip, hrest, Member.value]

theorem readScalar_number {c : Char} (h : startsNumber c = true) (cs : List Char) :
    readScalar (c :: cs) = (scanNumber (c :: cs)).map fun (lexeme, rest) => (.number lexeme, rest) := by
  have hn : c ≠ 'n' := ne_of_startsNumber h rfl
  have ht : c ≠ 't' := ne_of_startsNumber h rfl
  have hf : c ≠ 'f' := ne_of_startsNumber h rfl
  simp [readScalar, hn, ht, hf]

/-- A value that starts with none of the marks is read as a scalar. -/
theorem readValue_scalar {c : Char} (hblank : isBlank c = false) (hmark : c ∉ ['"', '[', '{']) (gap : Gap)
    (bound : Nat) (cs : List Char) : readValue (bound + 1) (gap.chars ++ c :: cs) = readScalar (c :: cs) := by
  simp only [List.mem_cons, List.not_mem_nil, or_false, not_or] at hmark
  simp [readValue, skipBlanks_mark hblank, hmark]

/-- To be read, a text needs its first character; the bound allows for one call more. -/
theorem reads_cons {c : Char} {cs : List Char}
    (h : ∀ (gap : Gap) (bound : Nat) (rest : List Char), 2 * cs.length < bound + 1 → Ends rest →
      readValue (bound + 1) (gap.chars ++ c :: (cs ++ rest)) = some (j, rest)) : Reads j (c :: cs) := by
  intro gap bound rest hbound hrest
  rw [List.length_cons] at hbound
  obtain ⟨bound, rfl⟩ : ∃ b, bound = b + 1 := ⟨bound - 1, by omega⟩
  rw [List.append_assoc, List.cons_append]
  exact h gap bound rest (by omega) hrest

theorem reads_scalar (hscalar : ∀ rest, readScalar (body ++ rest) = some (j, rest)) {c : Char} {cs : List Char}
    (hbody : body = c :: cs) (hblank : isBlank c = false) (hmark : c ∉ ['"', '[', '{']) : Reads j body := by
  subst hbody
  refine reads_cons fun gap bound rest _ _ => ?_
  rw [readValue_scalar hblank hmark, ← List.cons_append, hscalar]

theorem reads_number {lexeme : List Char} (h : IsNumber lexeme) : Reads (.number lexeme) lexeme := by
  obtain ⟨c, cs, rfl, hstart⟩ := h.head
  refine reads_cons fun gap bound rest _ hrest => ?_
  have hmark : c ∉ ['"', '[', '{'] := by
    simp only [List.mem_cons, List.not_mem_nil, or_false, not_or]
    exact ⟨ne_of_startsNumber hstart rfl, ne_of_startsNumber hstart rfl, ne_of_startsNumber hstart rfl⟩
  rw [readValue_scalar (isBlank_of_startsNumber hstart) hmark, readScalar_number hstart, ← List.cons_append,
    h.scanNumber_append hrest]
  rfl

theorem reads_string {raw : List Char} (h : IsRaw raw) : Reads (.string raw) ('"' :: raw ++ ['"']) := by
  refine reads_cons fun gap bound rest _ _ => ?_
  have hopen := skipBlanks_mark (show isBlank '"' = false from rfl) gap
  have hscan : scanString .plain (raw ++ '"' :: rest) = some (raw, rest) := scanString_of_isRaw h
  simp [readValue, hopen, hscan]

theorem skipBlanks_skipBlanks (cs : List Char) : skipBlanks (skipBlanks cs) = skipBlanks cs :=
  List.dropWhile_idempotent _ _

theorem readValue_skipBlanks (bound : Nat) (cs : List Char) :
    readValue bound (skipBlanks cs) = readValue bound cs := by
  cases bound with
  | zero => rfl
  | succ bound => rw [readValue, readValue, skipBlanks_skipBlanks]

theorem readItems_skipBlanks (bound : Nat) (cs : List Char) :
    readItems bound (skipBlanks cs) = readItems bound cs := by
  cases bound with
  | zero => rfl
  | succ bound => rw [readItems, readItems, readValue_skipBlanks]

theorem readMembers_skipBlanks (bound : Nat) (cs : List Char) :
    readMembers bound (skipBlanks cs) = readMembers bound cs := by
  cases bound with
  | zero => rfl
  | succ bound => rw [readMembers, readMembers, readKey, readKey, skipBlanks_skipBlanks]

theorem separated_eq_append (part : List Char) (parts : List (List Char)) :
    ∃ more, separated ',' (part :: parts) = part ++ more := by
  cases parts with
  | nil => exact ⟨[], (List.append_nil part).symm⟩
  | cons next parts => exact ⟨_, rfl⟩

/-- Where the items of an array start, the array does not end. -/
theorem skipBlanks_items {items : List Item} (hne : items ≠ []) (h : ∀ i ∈ items, Writes i.value i.body)
    (rest : List Char) :
    ∃ c cs, skipBlanks (separated ',' (items.map (·.text)) ++ rest) = c :: cs ∧ c ≠ ']' := by
  obtain ⟨i, items, rfl⟩ := List.exists_cons_of_ne_nil hne
  obtain ⟨c, cs, hbody, hblank, hc⟩ := (h i List.mem_cons_self).head
  obtain ⟨more, hmore⟩ := separated_eq_append i.text (items.map (·.text))
  refine ⟨c, cs ++ i.after.chars ++ more ++ rest, ?_, hc⟩
  have hskip := skipBlanks_mark hblank i.before (cs ++ i.after.chars ++ more ++ rest)
  rw [List.map_cons, hmore, Item.text, hbody]
  simpa using hskip

theorem skipBlanks_members {members : List Member} (hne : members ≠ []) (rest : List Char) :
    ∃ cs, skipBlanks (separated ',' (members.map (·.text)) ++ rest) = '"' :: cs := by
  obtain ⟨m, members, rfl⟩ := List.exists_cons_of_ne_nil hne
  obtain ⟨more, hmore⟩ := separated_eq_append m.text (members.map (·.text))
  have hskip := skipBlanks_mark (show isBlank '"' = false from rfl) m.before
  refine ⟨m.key ++ '"' :: (m.after.chars ++ ':' :: (m.item.text ++ (more ++ rest))), ?_⟩
  rw [List.map_cons, hmore, Member.text]
  simp only [List.append_assoc, List.cons_append, hskip]

/-- Reading finds the value in each of its texts. -/
theorem Writes.reads (h : Writes j body) : Reads j body := by
  induction h with
  | null => exact reads_scalar (fun _ => rfl) rfl rfl (by decide)
  | bool b => cases b <;> exact reads_scalar (fun _ => rfl) rfl rfl (by decide)
  | number h => exact reads_number h
  | string h => exact reads_string h
  | noItems hole =>
    refine reads_cons fun gap bound rest _ _ => ?_
    have hopen := skipBlanks_mark (show isBlank '[' = false from rfl) gap
    have hclose := skipBlanks_mark (show isBlank ']' = false from rfl) hole rest
    simp [readValue, hopen, hclose]
  | items items hne hwritten ih =>
    refine reads_cons fun gap bound rest hbound _ => ?_
    have hopen := skipBlanks_mark (show isBlank '[' = false from rfl) gap
    have hread := @readItems_of_reads bound items hne ih (by simp at hbound; omega) rest
    obtain ⟨c, cs, hskip, hc⟩ := skipBlanks_items hne hwritten (']' :: rest)
    rw [← readItems_skipBlanks, hskip] at hread
    simp [readValue, hopen, hskip, hc, hread]
  | noMembers hole =>
    refine reads_cons fun gap bound rest _ _ => ?_
    have hopen := skipBlanks_mark (show isBlank '{' = false from rfl) gap
    have hclose := skipBlanks_mark (show isBlank '}' = false from rfl) hole rest
    simp [readValue, hopen, hclose]
  | members members hne hkeys _ ih =>
    refine reads_cons fun gap bound rest hbound _ => ?_
    have hopen := skipBlanks_mark (show isBlank '{' = false from rfl) gap
    have hread := @readMembers_of_reads bound members hne hkeys ih (by simp at hbound; omega) rest
    obtain ⟨cs, hskip⟩ := skipBlanks_members hne ('}' :: rest)
    rw [← readMembers_skipBlanks, hskip] at hread
    simp [readValue, hopen, hskip, hread]

/-- A text of a value with blanks around it is parsed to the value. -/
theorem Writes.parse (h : Writes j body) (before after : Gap) :
    parse (before.chars ++ body ++ after.chars) = some j := by
  have hread := h.reads before (2 * (before.chars ++ body ++ after.chars).length + 1) after.chars
    (by simp only [List.length_append]; omega) (by have hends := ends_nil.gap after; rwa [List.append_nil] at hends)
  rw [Json.parse, hread, Option.bind_some]
  exact if_pos (skipBlanks_gap after)

/-! ### The compact text -/

/-- The numbers of a value are numbers as a whole, and its strings and keys can stand between quotes. -/
inductive Proper : Json → Prop where
  | null : Proper .null
  | bool (b : Bool) : Proper (.bool b)
  | number {lexeme : List Char} : IsNumber lexeme → Proper (.number lexeme)
  | string {raw : List Char} : IsRaw raw → Proper (.string raw)
  | array {items : List Json} : (∀ item ∈ items, Proper item) → Proper (.array items)
  | object {members : List (List Char × Json)} : (∀ m ∈ members, IsRaw m.1) → (∀ m ∈ members, Proper m.2) →
      Proper (.object members)

def Item.compact (j : Json) : Item := ⟨.empty, j, j.render, .empty⟩

def Member.compact (m : List Char × Json) : Member := ⟨.empty, m.1, .empty, .compact m.2⟩

theorem renderItems_eq_map (items : List Json) : renderItems items = (items.map Item.compact).map (·.text) := by
  induction items with
  | nil => rfl
  | cons item items ih => simp [renderItems, ih, Item.text, Item.compact, Gap.empty]

theorem renderMembers_eq_map (members : List (List Char × Json)) :
    renderMembers members = (members.map Member.compact).map (·.text) := by
  induction members with
  | nil => rfl
  | cons m members ih => simp [renderMembers, ih, Member.text, Member.compact, Item.text, Item.compact, Gap.empty]

theorem Proper.writes_render (h : Proper j) : Writes j j.render := by
  induction h with
  | null => exact .null
  | bool b => exact .bool b
  | number h => exact .number h
  | string h => exact .string h
  | @array items _ ih =>
    by_cases hne : items = []
    · subst hne
      exact .noItems .empty
    · have hwrites := Writes.items (items.map Item.compact) (mt List.map_eq_nil_iff.mp hne)
        (List.forall_mem_map.mpr ih)
      have hvalues : (items.map Item.compact).map (·.value) = items := by simp [Item.compact, Function.comp_def]
      rwa [hvalues, ← renderItems_eq_map] at hwrites
  | @object members hkeys _ ih =>
    by_cases hne : members = []
    · subst hne
      exact .noMembers .empty
    · have hwrites := Writes.members (members.map Member.compact) (mt List.map_eq_nil_iff.mp hne)
        (List.forall_mem_map.mpr hkeys) (List.forall_mem_map.mpr ih)
      have hvalues : (members.map Member.compact).map (·.value) = members := by
        simp [Member.compact, Member.value, Item.compact, Function.comp_def]
      rwa [hvalues, ← renderMembers_eq_map] at hwrites

/-- The compact text of a value is parsed to the value. -/
theorem Proper.parse_render (h : Proper j) : parse j.render = some j := by
  have hparse := h.writes_render.parse .empty .empty
  rwa [Gap.empty, List.nil_append, List.append_nil] at hparse

end InfoFlow.Json

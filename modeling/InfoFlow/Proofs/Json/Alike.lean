import Mathlib.Data.List.Nodup
import Mathlib.Data.List.Perm.Basic
import InfoFlow.Proofs.Json.Whole
import InfoFlow.Proofs.SavedForms

/-! # Values that say the same

Whoever writes JSON may escape the characters of a string or a key or not, may put the members of a record into any
order, and may leave out their names if the order is kept. A reader must not depend on that: what it reads from a saved
form it reads from every value that says the same. -/

namespace InfoFlow

open Json (Fields Field record fields? unescape escape resolveKeys)

namespace Json

mutual

/-- The second value says the same as the first one: its strings and keys stand for the same texts, and in place of an
object it has the same members in some order or the array of their values. -/
inductive Alike : Json → Json → Prop where
  | null : Alike .null .null
  | bool (b : Bool) : Alike (.bool b) (.bool b)
  | number (lexeme : List Char) : Alike (.number lexeme) (.number lexeme)
  | string {raw other text : List Char} : unescape raw = some text → unescape other = some text →
      Alike (.string raw) (.string other)
  | array {items others : List Json} : List.Forall₂ Alike items others → Alike (.array items) (.array others)
  | object {members others reordered : List (List Char × Json)} : List.Forall₂ AlikeMember members others →
      reordered.Perm others → Alike (.object members) (.object reordered)
  | row {members : List (List Char × Json)} {items : List Json} : List.Forall₂ AlikeValue members items →
      Alike (.object members) (.array items)

/-- The keys of two members stand for the same name, and their values say the same. -/
inductive AlikeMember : List Char × Json → List Char × Json → Prop where
  | member {key other name : List Char} {value value' : Json} : unescape key = some name →
      unescape other = some name → Alike value value' → AlikeMember (key, value) (other, value')

/-- The value says the same as that of the member. -/
inductive AlikeValue : List Char × Json → Json → Prop where
  | value {key name : List Char} {value value' : Json} : unescape key = some name → Alike value value' →
      AlikeValue (key, value) value'

end

variable {j k : Json} {members : Fields} {name : String}

/-! ### Scalars -/

theorem Alike.string?_eq {s : String} (h : Alike (ofString s) j) : j.string? = some s := by
  cases h with
  | string hraw hother =>
    rw [unescape_escape] at hraw
    rw [string?, hother, ← hraw, Option.map_some, String.ofList_toList]

theorem Alike.eq_bool {b : Bool} (h : Alike (.bool b) j) : j = .bool b := by
  cases h
  rfl

theorem Alike.eq_ofNat {n : Nat} (h : Alike (ofNat n) j) : j = ofNat n := by
  cases h
  rfl

theorem Alike.eq_ofInt {n : Int} (h : Alike (ofInt n) j) : j = ofInt n := by
  cases n with
  | ofNat n => exact eq_ofNat h
  | negSucc n =>
    cases h
    rfl

theorem Alike.eq_null_iff (h : Alike j k) : k = .null ↔ j = .null := by
  cases h <;> simp

/-! ### Values that mean something throughout -/

mutual

/-- A value that means something throughout says the same as itself. -/
theorem alike_self : ∀ {j : Json}, j.isMeaningful = true → Alike j j
  | .null, _ => .null
  | .bool b, _ => .bool b
  | .number lexeme, _ => .number lexeme
  | .string _, h =>
    have ⟨_, htext⟩ := Option.isSome_iff_exists.mp h
    .string htext htext
  | .array _, h => .array (alike_self_items h)
  | .object _, h => .object (alike_self_members h) (.refl _)

theorem alike_self_items : ∀ {items : List Json}, areMeaningful items = true → List.Forall₂ Alike items items
  | [], _ => .nil
  | _ :: _, h =>
    have ⟨hitem, hitems⟩ := Bool.and_eq_true_iff.mp h
    .cons (alike_self hitem) (alike_self_items hitems)

theorem alike_self_members : ∀ {members : List (List Char × Json)}, haveMeaning members = true →
    List.Forall₂ AlikeMember members members
  | [], _ => .nil
  | (_, _) :: _, h =>
    have ⟨hmember, hmembers⟩ := Bool.and_eq_true_iff.mp h
    have ⟨hkey, hvalue⟩ := Bool.and_eq_true_iff.mp hmember
    have ⟨_, hname⟩ := Option.isSome_iff_exists.mp hkey
    .cons (.member hname hname (alike_self hvalue)) (alike_self_members hmembers)

end
theorem depthMembers_perm {l l' : List (List Char × Json)} (h : l.Perm l') : depthMembers l = depthMembers l' := by
  induction h with
  | nil => rfl
  | cons m _ ih => rw [depthMembers, depthMembers, ih]
  | swap m n l =>
    simp only [depthMembers]
    exact Nat.max_left_comm _ _ _
  | trans _ _ ih ih' => exact ih.trans ih'

theorem haveMeaning_perm {l l' : List (List Char × Json)} (h : l.Perm l') : haveMeaning l = haveMeaning l' := by
  induction h with
  | nil => rfl
  | cons m _ ih => rw [haveMeaning, haveMeaning, ih]
  | swap m n l =>
    simp only [haveMeaning]
    exact Bool.and_left_comm _ _ _
  | trans _ _ ih ih' => exact ih.trans ih'

mutual

theorem Alike.depth_eq : ∀ {j k : Json}, Alike j k → k.depth = j.depth
  | .null, _, .null | .bool _, _, .bool _ | .number _, _, .number _ | .string _, _, .string _ _ => rfl
  | .array _, _, .array h => congrArg (· + 1) (depthItems_eq h)
  | .object _, _, .object h hperm => congrArg (· + 1) ((depthMembers_perm hperm).trans (depthMembers_eq h))
  | .object _, _, .row h => congrArg (· + 1) (depthValues_eq h)

theorem depthItems_eq : ∀ {items others : List Json}, List.Forall₂ Alike items others →
    depthItems others = depthItems items
  | [], _, .nil => rfl
  | _ :: _, _, .cons h hs => congrArg₂ max h.depth_eq (depthItems_eq hs)

theorem depthMembers_eq : ∀ {members others : List (List Char × Json)}, List.Forall₂ AlikeMember members others →
    depthMembers others = depthMembers members
  | [], _, .nil => rfl
  | (_, _) :: _, _, .cons (.member _ _ h) hs => congrArg₂ max h.depth_eq (depthMembers_eq hs)

theorem depthValues_eq : ∀ {members : List (List Char × Json)} {items : List Json},
    List.Forall₂ AlikeValue members items → depthItems items = depthMembers members
  | [], _, .nil => rfl
  | (_, _) :: _, _, .cons (.value _ h) hs => congrArg₂ max h.depth_eq (depthValues_eq hs)

end

mutual

theorem Alike.isMeaningful_eq : ∀ {j k : Json}, Alike j k → k.isMeaningful = j.isMeaningful
  | .null, _, .null | .bool _, _, .bool _ | .number _, _, .number _ => rfl
  | .string _, _, .string hraw hother => by rw [isMeaningful, isMeaningful, hraw, hother]
  | .array _, _, .array h => areMeaningful_eq h
  | .object _, _, .object h hperm => (haveMeaning_perm hperm).trans (haveMeaning_eq h)
  | .object _, _, .row h => valuesHaveMeaning_eq h

theorem areMeaningful_eq : ∀ {items others : List Json}, List.Forall₂ Alike items others →
    areMeaningful others = areMeaningful items
  | [], _, .nil => rfl
  | _ :: _, _, .cons h hs => congrArg₂ and h.isMeaningful_eq (areMeaningful_eq hs)

theorem haveMeaning_eq : ∀ {members others : List (List Char × Json)}, List.Forall₂ AlikeMember members others →
    haveMeaning others = haveMeaning members
  | [], _, .nil => rfl
  | (_, _) :: _, _, .cons (.member hkey hother h) hs => by
    rw [haveMeaning, haveMeaning, hkey, hother, h.isMeaningful_eq, haveMeaning_eq hs]

theorem valuesHaveMeaning_eq : ∀ {members : List (List Char × Json)} {items : List Json},
    List.Forall₂ AlikeValue members items → areMeaningful items = haveMeaning members
  | [], _, .nil => rfl
  | (_, _) :: _, _, .cons (.value hkey h) hs => by
    rw [areMeaningful, haveMeaning, hkey, h.isMeaningful_eq, valuesHaveMeaning_eq hs, Option.isSome_some,
      Bool.true_and]

end

theorem Alike.isWhole_eq (h : Alike j k) (enclosing : Nat) : k.isWhole enclosing = j.isWhole enclosing := by
  rw [isWhole, isWhole, h.depth_eq, h.isMeaningful_eq]

/-! ### Members of objects -/

theorem exists_of_forall₂ {α β : Type} {R : α → β → Prop} {l : List α} {l' : List β} (h : List.Forall₂ R l l') {a : α}
    (ha : a ∈ l) : ∃ b ∈ l', R a b := by
  induction h with
  | nil => cases ha
  | @cons _ b _ _ hab _ ih =>
    rcases List.mem_cons.mp ha with rfl | ha
    · exact ⟨b, List.mem_cons_self, hab⟩
    · obtain ⟨b, hb, hab⟩ := ih ha
      exact ⟨b, List.mem_cons_of_mem _ hb, hab⟩

/-- A member as it is written and as it is meant. -/
def Means (raw : List Char × Json) (m : String × Json) : Prop := unescape raw.1 = some m.1.toList ∧ raw.2 = m.2

/-- Two members have one name, and their values say the same. -/
def Same (m n : String × Json) : Prop := m.1 = n.1 ∧ Alike m.2 n.2

/-- Records with the same members in some order say the same. -/
theorem alike_record {ordered found : Fields} (h : List.Forall₂ Same members ordered) (hperm : found.Perm ordered) :
    Alike (record members) (record found) := by
  refine .object (List.rel_map (R := Same) ?_ h) (hperm.map _)
  rintro ⟨name, value⟩ ⟨_, _⟩ ⟨rfl, hvalue⟩
  exact .member (unescape_escape name.toList) (unescape_escape name.toList) hvalue

theorem exists_same_of_members {others : List (List Char × Json)}
    (h : List.Forall₂ AlikeMember (members.map fun (name, value) => (escape name.toList, value)) others) :
    ∃ ordered, List.Forall₂ Same members ordered ∧ List.Forall₂ Means others ordered := by
  induction members generalizing others with
  | nil =>
    cases h
    exact ⟨[], .nil, .nil⟩
  | cons m members ih =>
    cases h with
    | cons hm hrest =>
      obtain ⟨ordered, hsame, hmeans⟩ := ih hrest
      cases hm with
      | @member _ other _ _ value hkey hother hvalue =>
        rw [unescape_escape] at hkey
        exact ⟨(m.1, value) :: ordered, .cons ⟨rfl, hvalue⟩ hsame, .cons ⟨hother.trans hkey.symm, rfl⟩ hmeans⟩

theorem exists_same_of_values {items : List Json}
    (h : List.Forall₂ AlikeValue (members.map fun (name, value) => (escape name.toList, value)) items) :
    ∃ ordered, List.Forall₂ Same members ordered ∧ items = ordered.map Prod.snd := by
  induction members generalizing items with
  | nil =>
    cases h
    exact ⟨[], .nil, rfl⟩
  | cons m members ih =>
    cases h with
    | @cons _ item _ _ hm hrest =>
      obtain ⟨ordered, hsame, rfl⟩ := ih hrest
      cases hm with
      | value _ hvalue => exact ⟨(m.1, item) :: ordered, .cons ⟨rfl, hvalue⟩ hsame, rfl⟩

/-- A value that says the same as a record is an object with the same members or the array of their values. -/
theorem Alike.exists_members (h : Alike (record members) j) :
    ∃ ordered, List.Forall₂ Same members ordered ∧
      ((∃ raws found, j = .object raws ∧ List.Forall₂ Means raws found ∧ found.Perm ordered) ∨
        j = .array (ordered.map Prod.snd)) := by
  cases h with
  | @object _ _ raws hmembers hperm =>
    obtain ⟨ordered, hsame, hmeans⟩ := exists_same_of_members hmembers
    obtain ⟨found, hfound, hreordered⟩ := List.perm_comp_forall₂ hperm hmeans
    exact ⟨ordered, hsame, .inl ⟨raws, found, rfl, hfound, hreordered⟩⟩
  | row hvalues =>
    obtain ⟨ordered, hsame, rfl⟩ := exists_same_of_values hvalues
    exact ⟨ordered, hsame, .inr rfl⟩

/-- A value that says the same as a record has something for the first member, and the others are for the rest. -/
theorem Alike.exists_cons {m : String × Json} (h : Alike (record (m :: members)) j) :
    (∃ raws key value others, j = .object raws ∧ unescape key = some m.1.toList ∧ Alike m.2 value ∧
      List.Forall₂ AlikeMember (members.map fun (name, value) => (escape name.toList, value)) others ∧
      raws.Perm ((key, value) :: others)) ∨
    ∃ value items, j = .array (value :: items) ∧ Alike m.2 value ∧ Alike (record members) (.array items) := by
  cases h with
  | object hmembers hperm =>
    cases hmembers with
    | cons hm hothers =>
      cases hm with
      | member hkey hother hvalue =>
        rw [unescape_escape] at hkey
        exact .inl ⟨_, _, _, _, rfl, hother.trans hkey.symm, hvalue, hothers, hperm⟩
  | row hitems =>
    cases hitems with
    | cons hm hrest =>
      cases hm with
      | value _ hvalue => exact .inr ⟨_, _, rfl, hvalue, .row hrest⟩

theorem resolveKeys_of_means {raws : List (List Char × Json)} {found : Fields} (h : List.Forall₂ Means raws found) :
    resolveKeys raws = some found := by
  induction h with
  | nil => rfl
  | @cons raw m raws found hm _ ih =>
    rw [resolveKeys] at ih ⊢
    simp [hm.1, hm.2, ih]

theorem map_fst_of_same {found : Fields} (h : List.Forall₂ Same members found) :
    found.map Prod.fst = members.map Prod.fst := by
  induction h with
  | nil => rfl
  | cons hm _ ih => rw [List.map_cons, List.map_cons, hm.1, ih]

theorem find?_of_mem {fields : Fields} (hnodup : (fields.map Prod.fst).Nodup) (h : (name, j) ∈ fields) :
    fields.find? name = some j := by
  cases hfind : fields.find? name with
  | none =>
    have hne := List.lookup_eq_none_iff.mp hfind _ h
    simp at hne
  | some found =>
    obtain ⟨before, after, rfl, -⟩ := List.lookup_eq_some_iff.mp hfind
    have hmem : (name, found) ∈ before ++ (name, found) :: after := by simp
    have heq := List.inj_on_of_nodup_map hnodup hmem h rfl
    exact congrArg some (Prod.mk.inj heq).2

/-- What is found under the names of a record in a value that says the same. -/
structure Finds (members found : Fields) : Prop where
  given : ∀ m ∈ members, ∃ v, found.find? m.1 = some v ∧ Alike m.2 v
  missing : ∀ name, name ∉ members.map Prod.fst → found.find? name = none

theorem finds_of_same {ordered found : Fields} (hnodup : (members.map Prod.fst).Nodup)
    (hsame : List.Forall₂ Same members ordered) (hperm : found.Perm ordered) : Finds members found := by
  have hnames : (found.map Prod.fst).Perm (members.map Prod.fst) := map_fst_of_same hsame ▸ hperm.map Prod.fst
  refine ⟨fun m hm => ?_, fun name hname => ?_⟩
  · obtain ⟨⟨_, v⟩, hv, rfl, halike⟩ := exists_of_forall₂ hsame hm
    exact ⟨v, find?_of_mem (hnames.nodup_iff.mpr hnodup) (hperm.mem_iff.mpr hv), halike⟩
  · refine List.lookup_eq_none_iff.mpr fun n hn => bne_iff_ne.mpr ?_
    rintro rfl
    exact hname (hnames.mem_iff.mp (List.mem_map_of_mem hn))

/-- An object gives the fields of a record in any order. -/
theorem fields?_object {raws : List (List Char × Json)} {found : Fields} {shape : List Field}
    (hmeans : List.Forall₂ Means raws found) (hnodup : (found.map Prod.fst).Nodup)
    (hknown : ∀ name ∈ found.map Prod.fst, name ∈ shape.map Field.name) :
    fields? shape (.object raws) = some found := by
  have hall : found.filter (fun (name, _) => shape.any (·.name == name)) = found := by
    refine List.filter_eq_self.mpr fun n hn => ?_
    obtain ⟨field, hfield, heq⟩ := List.mem_map.mp (hknown n.1 (List.mem_map_of_mem hn))
    exact List.any_eq_true.mpr ⟨field, hfield, beq_iff_eq.mpr heq⟩
  simp only [Json.fields?, resolveKeys_of_means hmeans, Option.bind_some, hall, if_pos hnodup]

/-- An array gives the fields of a record in their order; those that are missing stand behind the others. -/
theorem fields?_array {found : Fields} {shape : List Field} {missing : List String}
    (hshape : shape.map Field.name = found.map Prod.fst ++ missing)
    (htrailing : (shape.drop found.length).all (·.trailing) = true) :
    fields? shape (.array (found.map Prod.snd)) = some found := by
  have hlength : found.length ≤ shape.length := by
    have hlengths := congrArg List.length hshape
    simp only [List.length_map, List.length_append] at hlengths
    omega
  have hzip : (shape.map Field.name).zip (found.map Prod.snd) = found := by
    rw [hshape, ← List.append_nil (found.map Prod.snd), List.zip_append (by simp), List.zip_nil_right,
      List.append_nil, List.zip_map', List.map_id']
  rw [fields?, List.length_map, if_pos ⟨hlength, htrailing⟩, hzip]

/-- The fields of a record are found in every value that says the same. -/
theorem Alike.fields? (h : Alike (record members) j) {shape : List Field} {missing : List String}
    (hshape : shape.map Field.name = members.map Prod.fst ++ missing)
    (htrailing : (shape.drop members.length).all (·.trailing) = true) (hnodup : (members.map Prod.fst).Nodup) :
    ∃ found, Json.fields? shape j = some found ∧ Finds members found := by
  obtain ⟨ordered, hsame, ⟨raws, found, rfl, hmeans, hperm⟩ | rfl⟩ := h.exists_members
  · have hnames : (found.map Prod.fst).Perm (members.map Prod.fst) := map_fst_of_same hsame ▸ hperm.map Prod.fst
    refine ⟨found, fields?_object hmeans (hnames.nodup_iff.mpr hnodup) fun name hname => ?_,
      finds_of_same hnodup hsame hperm⟩
    rw [hshape]
    exact List.mem_append_left _ (hnames.mem_iff.mp hname)
  · rw [← map_fst_of_same hsame] at hshape
    rw [hsame.length_eq] at htrailing
    exact ⟨ordered, fields?_array hshape htrailing, finds_of_same hnodup hsame (.refl ordered)⟩

end Json

/-! ### Reading -/

/-- A value is read from everything that says the same as its saved form. -/
class ReadsAlike (α : Type) [Saved α] : Prop where
  ofJson?_of_alike : ∀ {a : α} {j : Json}, Json.Alike (toJson a) j → ofJson? j = some a

section

open Json (Alike)
open ReadsAlike

instance : ReadsAlike Bool where
  ofJson?_of_alike h := by rw [Alike.eq_bool h]; rfl

instance : ReadsAlike String where
  ofJson?_of_alike h := Alike.string?_eq h

instance : ReadsAlike UInt64 where
  ofJson?_of_alike {n _} h := by
    rw [Alike.eq_ofNat h]
    exact LawfulSaved.ofJson?_toJson n

instance : ReadsAlike UInt32 where
  ofJson?_of_alike {n _} h := by
    rw [Alike.eq_ofNat h]
    exact LawfulSaved.ofJson?_toJson n

instance : ReadsAlike Int64 where
  ofJson?_of_alike {n _} h := by
    rw [Alike.eq_ofInt h]
    exact LawfulSaved.ofJson?_toJson n

instance {α : Type} [Saved α] [ReadsAlike α] [NeverNull α] : ReadsAlike (Option α) where
  ofJson?_of_alike {a j} h := by
    cases a with
    | none =>
      rw [h.eq_null_iff.mpr rfl]
      rfl
    | some a =>
      have hread : ofJson? j = some a := ofJson?_of_alike h
      have hne : j ≠ .null := mt h.eq_null_iff.mp (NeverNull.toJson_ne_null a)
      cases j with
      | null => exact absurd rfl hne
      | _ => exact congrArg (Option.map some) hread

instance : ReadsAlike Register where
  ofJson?_of_alike {r j} h := by
    have hindex : ofJson? j = some r.index := ofJson?_of_alike h
    exact congrArg (Option.map Register.mk) hindex

variable {α : Type} [Saved α] [ReadsAlike α] {a : α} {members found : Fields} {name : String}

theorem Json.Finds.get? (h : Json.Finds members found) (hm : (name, toJson a) ∈ members) :
    found.get? name = some a := by
  obtain ⟨v, hv, halike⟩ := h.given _ hm
  rw [Fields.get?, hv]
  exact ofJson?_of_alike halike

instance : ReadsAlike Label where
  ofJson?_of_alike {l j} h := by
    have hrecord : Alike
        (record [("value", toJson (UInt64.ofBitVec l.sources)), ("deferred", toJson l.deferred)]) j := h
    obtain ⟨found, hfields, hfound⟩ :
        ∃ found, fields? (Json.complete ["value", "deferred"]) j = some found ∧ Json.Finds _ found :=
      hrecord.fields? (List.append_nil _).symm rfl (by simp)
    have hvalue : found.get? "value" = some (UInt64.ofBitVec l.sources) := hfound.get? (by simp)
    have hdeferred : found.get? "deferred" = some l.deferred := hfound.get? (by simp)
    simp [ofJson?, hfields, hvalue, hdeferred]

end
end InfoFlow

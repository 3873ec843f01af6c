import InfoFlow.Proofs.Json.Texts
import InfoFlow.Saved.State

/-! # Saved values are read back

The saved forms of the small types are read back as the values they were written for. A record is read back if its
fields are, since an object that was written gives each of them once. So the law is carried from the parts to the
whole, up to contexts, by one instance for each type. -/

namespace InfoFlow

open Json (record complete fields? Proper Fields)

/-! ### Records -/

namespace Json

variable {members : Fields} {names : List String}

theorem proper_ofString (s : String) : (ofString s).Proper := .string (isRaw_escape _)

theorem proper_ofNat (n : Nat) : (ofNat n).Proper := .number (isNumber_toDigits n)

theorem proper_ofInt (n : Int) : (ofInt n).Proper := by
  cases n with
  | ofNat n => exact proper_ofNat n
  | negSucc n => exact .number (isNumber_neg_toDigits (n + 1))

theorem proper_record (h : ∀ m ∈ members, m.2.Proper) : (record members).Proper :=
  .object (List.forall_mem_map.mpr fun _ _ => isRaw_escape _) (List.forall_mem_map.mpr h)

/-- The keys of a written record mean the names of its members. -/
theorem resolveKeys_record (members : Fields) :
    resolveKeys (members.map fun (name, value) => (escape name.toList, value)) = some members := by
  induction members with
  | nil => rfl
  | cons m members ih =>
    rw [resolveKeys] at ih ⊢
    simp [ih]

/-- A written record gives its members if they have names that the reader knows, none of them twice. -/
theorem fields?_record {shape : List Field} (hknown : ∀ m ∈ members, ∃ field ∈ shape, field.name = m.1)
    (hnodup : (members.map Prod.fst).Nodup) : fields? shape (record members) = some members := by
  have hall : members.filter (fun (name, _) => shape.any (·.name == name)) = members := by
    simpa [List.filter_eq_self] using hknown
  simp only [record, fields?, resolveKeys_record, Option.bind_some, hall, if_pos hnodup]

theorem fields?_complete (hnames : members.map Prod.fst = names) (hnodup : names.Nodup) :
    fields? (complete names) (record members) = some members := by
  subst hnames
  refine fields?_record (fun m hm => ?_) hnodup
  exact ⟨⟨m.1, false⟩, List.mem_map_of_mem (List.mem_map_of_mem hm), rfl⟩

/-- To read a record back, its members have to be read back. -/
theorem bind_fields?_complete {α : Type} {read : Fields → Option α} {a : α} (hnames : members.map Prod.fst = names)
    (hnodup : names.Nodup) (hread : read members = some a) :
    (fields? (complete names) (record members) >>= read) = some a := by
  rw [fields?_complete hnames hnodup, Option.bind_eq_bind, Option.bind_some, hread]

end Json

/-! ### The law -/

/-- Every value has a text, and it is read back from its saved form. -/
class LawfulSaved (α : Type) [Saved α] : Prop where
  proper : ∀ a : α, (toJson a).Proper
  ofJson?_toJson : ∀ a : α, ofJson? (toJson a) = some a

/-- No value is saved as `null`, so that `null` can stand for a missing one. -/
class NeverNull (α : Type) [Saved α] : Prop where
  toJson_ne_null : ∀ a : α, toJson a ≠ .null

attribute [simp] LawfulSaved.proper LawfulSaved.ofJson?_toJson

section

variable {α : Type} [Saved α]

theorem parse_save [LawfulSaved α] (a : α) : Json.parse (save a).toList = some (toJson a) := by
  rw [save, Json.text, String.toList_ofList, (LawfulSaved.proper a).parse_render]

@[simp] theorem load?_save [LawfulSaved α] (a : α) : load? (save a) = some a := by
  rw [load?, parse_save, Option.bind_some, LawfulSaved.ofJson?_toJson]

/-- Different values have different texts. -/
theorem save_injective [LawfulSaved α] : Function.Injective (save : α → String) := by
  intro a b h
  have hload : load? (save a) = some b := by rw [h, load?_save]
  rwa [load?_save, Option.some_inj] at hload

namespace Json.Fields

variable {members : Fields} {name other : String} {j : Json}

@[simp] theorem get?_cons_self [LawfulSaved α] (a : α) : get? ((name, toJson a) :: members) name = some a := by
  simp [get?, find?]

theorem get?_cons_of_ne (h : name ≠ other) : get? ((other, j) :: members) name = (get? members name : Option α) := by
  rw [get?, get?, find?, find?, List.lookup_cons, beq_false_of_ne h]

end Json.Fields

end

/-! ### Scalars, lists and options -/

section

open LawfulSaved NeverNull

instance : LawfulSaved Bool where
  proper := .bool
  ofJson?_toJson _ := rfl

instance : LawfulSaved String where
  proper := Json.proper_ofString
  ofJson?_toJson := Json.string?_ofString

instance : NeverNull String where
  toJson_ne_null _ := nofun

instance : LawfulSaved UInt64 where
  proper n := Json.proper_ofNat n.toNat
  ofJson?_toJson n := by simp [toJson, ofJson?, Option.filter, n.toNat_lt_size]

instance : LawfulSaved UInt32 where
  proper n := Json.proper_ofNat n.toNat
  ofJson?_toJson n := by simp [toJson, ofJson?, Option.filter, n.toNat_lt_size]

instance : NeverNull UInt32 where
  toJson_ne_null _ := nofun

instance : LawfulSaved Int64 where
  proper n := Json.proper_ofInt n.toInt
  ofJson?_toJson n := by
    have hrange : Int64.minValue.toInt ≤ n.toInt ∧ n.toInt ≤ Int64.maxValue.toInt :=
      ⟨n.minValue_le_toInt, n.toInt_le⟩
    simp only [toJson, ofJson?, Json.integer?_ofInt, Option.filter, hrange, and_self, decide_true, if_true,
      Option.map_some, Int64.ofInt_toInt]

variable {α : Type}

instance [Saved α] [LawfulSaved α] [NeverNull α] : LawfulSaved (Option α) where
  proper
    | none => .null
    | some a => proper a
  ofJson?_toJson
    | none => rfl
    | some a => by
      have hne := toJson_ne_null a
      have hread := ofJson?_toJson a
      simp only [toJson, ofJson?, hread, Option.map_some]

/-- What reads each item back reads back the list. -/
theorem mapM_map_of_read {β : Type} {write : α → β} {read : β → Option α} (h : ∀ a, read (write a) = some a)
    (l : List α) : (l.map write).mapM read = some l := by
  induction l with
  | nil => rfl
  | cons a l ih => simp [h, ih]

instance [Saved α] [LawfulSaved α] : LawfulSaved (List α) where
  proper _ := .array (List.forall_mem_map.mpr fun _ _ => proper _)
  ofJson?_toJson := mapM_map_of_read ofJson?_toJson

instance [Saved α] [LawfulSaved α] {n : Nat} : LawfulSaved (Vector α n) where
  proper v := proper v.toList
  ofJson?_toJson v := by
    have hread : (ofJson? (toJson v) : Option (List α)) = some v.toList := ofJson?_toJson v.toList
    change (ofJson? (toJson v) : Option (List α)).bind _ = some v
    simp [hread, Vector.toList]

/-- Named values are read back if each is the first one with its name. -/
theorem lawfulSaved_ofNames {name : α → String} {values : List α}
    (h : ∀ a, values.find? (name · == name a) = some a) : @LawfulSaved α (.ofNames name values) :=
  @LawfulSaved.mk _ (.ofNames name values) (fun a => Json.proper_ofString (name a)) fun a => by
    simp only [toJson, ofJson?, Json.unitVariant?_ofString, Option.bind_some, h]

end

/-! ### Labels and frames -/

section

open Json Fields

instance : LawfulSaved Label where
  proper l := proper_record (by simp [proper_ofNat])
  ofJson?_toJson l := by
    have hsources : Json.ofNat l.sources.toNat = toJson (UInt64.ofBitVec l.sources) := rfl
    refine bind_fields?_complete rfl (by decide) ?_
    simp [hsources, get?_cons_of_ne]

instance : NeverNull Label where
  toJson_ne_null _ := nofun

instance : LawfulSaved Enforcement := lawfulSaved_ofNames fun mode => by cases mode <;> rfl

instance : LawfulSaved Register where
  proper r := LawfulSaved.proper r.index
  ofJson?_toJson r := by
    change (ofJson? (toJson r.index)).map Register.mk = some r
    simp

instance : NeverNull Register where
  toJson_ne_null r := NeverNull.toJson_ne_null r.index

instance : LawfulSaved Frame where
  proper f := proper_record (by simp)
  ofJson?_toJson f := bind_fields?_complete rfl (by decide) (by simp [get?_cons_of_ne])

theorem Stack.ofFrames?_frames (s : Stack) : ofFrames? s.frames = some s := by
  simp [ofFrames?, frames]

instance : LawfulSaved Stack where
  proper s := proper_record (by simp)
  ofJson?_toJson s := bind_fields?_complete rfl (by decide) (by simp [s.ofFrames?_frames])

/-! ### Logs -/

instance : LawfulSaved Component := lawfulSaved_ofNames fun component => by cases component <;> rfl

instance : LawfulSaved Activity := lawfulSaved_ofNames fun activity => by cases activity <;> rfl

instance : LawfulSaved Outcome := lawfulSaved_ofNames fun outcome => by cases outcome <;> rfl

instance : LawfulSaved Event where
  proper e := proper_record (by simp)
  ofJson?_toJson e := bind_fields?_complete rfl (by decide) (by simp [get?_cons_of_ne])

instance : LawfulSaved EventLog where
  proper log := proper_record (by simp)
  ofJson?_toJson log := bind_fields?_complete rfl (by decide) (by simp [get?_cons_of_ne])

/-! ### Contexts -/

instance : LawfulSaved Origin.Entry where
  proper e := proper_record (by simp)
  ofJson?_toJson e := bind_fields?_complete rfl (by decide) (by simp [get?_cons_of_ne])

instance : LawfulSaved Origin.Registry where
  proper r := proper_record (by simp)
  ofJson?_toJson r := bind_fields?_complete rfl (by decide) (by simp [get?_cons_of_ne])

instance : LawfulSaved Capability where
  proper e := proper_record (by simp [Capability.members])
  ofJson?_toJson e := bind_fields?_complete rfl (by decide) (by simp [Capability.members, get?_cons_of_ne])

instance : LawfulSaved CapabilityTable where
  proper t := proper_record (by simp)
  ofJson?_toJson t := bind_fields?_complete rfl (by decide) (by simp [get?_cons_of_ne])

instance : LawfulSaved Globals where
  proper g := proper_record (by simp)
  ofJson?_toJson g := bind_fields?_complete rfl (by decide) (by simp [get?_cons_of_ne])

instance : LawfulSaved Context where
  proper c := proper_record (by simp)
  ofJson?_toJson c := bind_fields?_complete rfl (by decide) (by simp [get?_cons_of_ne])

end

end InfoFlow

import InfoFlow.Json.Basic
import InfoFlow.Json.Reader
import InfoFlow.Json.Record

/-! # Saved forms

A type has a saved form if its values are written as JSON values and read back from them. -/

namespace InfoFlow

/-- How the values of a type are written and read. -/
class Saved (α : Type) where
  toJson : α → Json
  /-- The value that is written, if one is. -/
  ofJson? : Json → Option α
  /-- What an object without the field stands for, if such an object is a record at all. -/
  absent? : Option α := none

export Saved (toJson ofJson?)

/-- The text under which a value is saved. -/
def save {α : Type} [Saved α] (a : α) : String := (toJson a).text

/-- The value that a text saves. -/
def load? {α : Type} [Saved α] (text : String) : Option α := (Json.parse text.toList).bind ofJson?

namespace Json.Fields

variable {α : Type} [Saved α]

/-- The value of a field that every record has. -/
def get? (fields : Fields) (name : String) : Option α :=
  match fields.find? name with
  | some j => ofJson? j
  | none => Saved.absent?

/-- The value of a field that has a value of its own where a record lacks it. -/
def getD? (fields : Fields) (name : String) (default : α) : Option α :=
  match fields.find? name with
  | some j => ofJson? j
  | none => some default

end Json.Fields

/-- A record all of whose fields stand in an array of them. -/
def Json.complete (names : List String) : List Json.Field := names.map ({ name := · })

instance : Saved Bool where
  toJson := .bool
  ofJson?
    | .bool b => some b
    | _ => none

instance : Saved String where
  toJson := .ofString
  ofJson? := Json.string?

/-- Counts and positions fit into 64 bits. -/
instance : Saved Nat where
  toJson := .ofNat
  ofJson? j := j.natural?.filter (· < UInt64.size)

instance : Saved UInt64 where
  toJson n := .ofNat n.toNat
  ofJson? j := (j.natural?.filter (· < UInt64.size)).map UInt64.ofNat

instance : Saved UInt32 where
  toJson n := .ofNat n.toNat
  ofJson? j := (j.natural?.filter (· < UInt32.size)).map UInt32.ofNat

instance : Saved Int64 where
  toJson n := .ofInt n.toInt
  ofJson? j :=
    (j.integer?.filter fun n => Int64.minValue.toInt ≤ n ∧ n ≤ Int64.maxValue.toInt).map Int64.ofInt

instance {α : Type} [Saved α] : Saved (Option α) where
  toJson
    | none => .null
    | some a => toJson a
  ofJson?
    | .null => some none
    | j => (ofJson? j).map some
  absent? := some none

instance {α : Type} [Saved α] : Saved (List α) where
  toJson l := .array (l.map toJson)
  ofJson?
    | .array items => items.mapM ofJson?
    | _ => none

instance {α : Type} [Saved α] {n : Nat} : Saved (Vector α n) where
  toJson v := toJson v.toList
  ofJson? j :=
    (ofJson? j : Option (List α)).bind fun l =>
      if h : l.length = n then some ⟨l.toArray, by simpa using h⟩ else none

/-- The saved form of a type with finitely many named values is the name. -/
@[reducible]
def Saved.ofNames {α : Type} (name : α → String) (values : List α) : Saved α where
  toJson a := .ofString (name a)
  ofJson? j := j.unitVariant?.bind fun s => values.find? (name · == s)

end InfoFlow

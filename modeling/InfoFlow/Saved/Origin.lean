import InfoFlow.Origin.Url
import InfoFlow.Origin.Registry
import InfoFlow.Saved.Flow

/-! # The saved forms of origins and their registry -/

namespace InfoFlow.Origin

open Json (record complete fields? variant)

/-- The stable name of a scheme. -/
def Scheme.name : Scheme → String
  | .file => "file"
  | .http => "http"
  | .about => "about"
  | .empty => "empty"
  | .null => "null"
  | .unknown => "unknown"

instance : Saved Scheme := .ofNames Scheme.name [.file, .http, .about, .empty, .null, .unknown]

instance : Saved Entry where
  toJson e := record [("origin_key", toJson e.key), ("label", toJson e.label)]
  ofJson? j := do
    let fields ← fields? (complete ["origin_key", "label"]) j
    return ⟨← fields.get? "origin_key", ← fields.get? "label"⟩

/-- The slot and the label that a registration gives. -/
def slotAndLabel? (j : Json) : Option (Nat × Label) := do
  let fields ← fields? (complete ["slot", "label"]) j
  return (← fields.get? "slot", ← fields.get? "label")

instance : Saved Registration where
  toJson
    | .policyRegistered => .ofString "policy_registered"
    | .policyAlreadyPresent => .ofString "policy_already_present"
    | .registered slot label =>
      variant "registered" (record [("slot", toJson slot), ("label", toJson label)])
    | .alreadyRegistered slot label =>
      variant "already_registered" (record [("slot", toJson slot), ("label", toJson label)])
    | .dropped => .ofString "dropped"
  ofJson? j :=
    match j.unitVariant? with
    | some "policy_registered" => some .policyRegistered
    | some "policy_already_present" => some .policyAlreadyPresent
    | some "dropped" => some .dropped
    | _ =>
      match j.variant? with
      | some ("registered", content) => (slotAndLabel? content).map fun (slot, label) => .registered slot label
      | some ("already_registered", content) =>
        (slotAndLabel? content).map fun (slot, label) => .alreadyRegistered slot label
      | _ => none

instance : Saved Registry where
  toJson r :=
    record [("entries", toJson r.entries), ("policy_origins", toJson r.policyOrigins), ("events", toJson r.log)]
  ofJson? j := do
    let fields ← fields? (complete ["entries", "policy_origins", "events"]) j
    return ⟨← fields.get? "entries", ← fields.get? "policy_origins", ← fields.get? "events"⟩

instance : Saved Hint where
  toJson
    | .currentScript => .ofString "current_script"
    | .origin url => variant "origin" (toJson url)
  ofJson? j :=
    match j.unitVariant? with
    | some "current_script" => some .currentScript
    | _ =>
      match j.variant? with
      | some ("origin", content) => (ofJson? content).map .origin
      | _ => none

end InfoFlow.Origin

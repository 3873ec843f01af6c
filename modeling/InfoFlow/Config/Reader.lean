import InfoFlow.Config.Basic
import InfoFlow.Toml.Reader

/-! # Reading configurations

A configuration is a TOML document. Every setting may be left out, and unknown ones are ignored. -/

namespace InfoFlow

inductive Contents where
  | missing
  /-- There is something, but it is no readable text. -/
  | unreadable
  | text (text : String)

namespace Config

def string? : Toml → Option String
  | .string s => some s
  | _ => none

def boolean? : Toml → Option Bool
  | .boolean b => some b
  | _ => none

def word? : Toml → Option UInt64
  | .integer (.ofNat n) => some (.ofNat n)
  | _ => none

def strings? : Toml → Option (List String)
  | .array items => items.mapM string?
  | _ => none

/-- A setting that has a value of its own where it is left out. -/
def setting {α : Type} (members : Toml.Members) (key : String) (read : Toml → Option α) (default : α) :
    Option α :=
  match members.lookup key with
  | some t => read t
  | none => some default

/-- The capability that a table describes; only its name is needed. -/
def capabilityOfMembers? (members : Toml.Members) : Option Capability := do
  return {
    name := ← (members.lookup "name").bind string?
    bits := ← setting members "bits" word? 0
    assignedAt := ← setting members "assigned_at_label" word? 0
    declassifiedTo := ← setting members "declassified_to_label" word? 0 }

/-- The capability that a table or an array of its parts describes. -/
def capability? : Toml → Option Capability
  | .table _ members => capabilityOfMembers? members
  | .array parts =>
    capabilityOfMembers? (["name", "bits", "assigned_at_label", "declassified_to_label"].zip parts)
  | _ => none

/-- The capabilities that an array describes, written in brackets or under headers. -/
def capabilities? : Toml → Option (List Capability)
  | .array items => items.mapM capability?
  | .tables elements => elements.mapM capabilityOfMembers?
  | _ => none

/-- The configuration that a document describes, valid or not. -/
def ofMembers? (members : Toml.Members) : Option Config := do
  let default : Config := {}
  return {
    traceId := ← setting members "trace_id" string? default.traceId
    enforce := ← setting members "enforce_nsu" boolean? default.enforce
    policyOrigins := ← setting members "policy_origins" strings? default.policyOrigins
    origins := ← setting members "origins" strings? default.origins
    capabilities := ← setting members "declassification" capabilities? default.capabilities }

def ofText (text : String) : Except ConfigError Config :=
  match (Toml.parse text.toList).bind ofMembers? with
  | none => .error .malformed
  | some config => config.validated

/-- The configuration in a file; without the file it is the default one. -/
def ofContents : Contents → Except ConfigError Config
  | .missing => .ok {}
  | .unreadable => .error .unreadable
  | .text text => ofText text

end Config
end InfoFlow

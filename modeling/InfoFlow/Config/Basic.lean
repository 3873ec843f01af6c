import InfoFlow.Label
import InfoFlow.Capability
import InfoFlow.Origin.Registry

/-! # Configuration

What a context starts from: the name of the run, whether writes are checked, the policy origins, the
origins that get the first slots, and the capabilities recorded from the start. -/

namespace InfoFlow

/-- What a context starts from. -/
structure Config where
  traceId : String := "ifc"
  enforce : Bool := true
  policyOrigins : List String := []
  /-- These take the first free slots, in this order. -/
  origins : List String := []
  capabilities : List Capability := []
deriving DecidableEq

inductive ConfigError where
  | unreadable
  | malformed
  | tooManyOrigins (count capacity : Nat)
  | emptyCapabilityName (index : Nat)
deriving DecidableEq

def ConfigError.message : ConfigError → String
  | .unreadable => "failed to read IFC config"
  | .malformed => "invalid IFC config TOML"
  | .tooManyOrigins count capacity =>
    "IFC config lists " ++ toString count ++ " origins but only " ++ toString capacity ++ " slots are free"
  | .emptyCapabilityName index => "declassification seed #" ++ toString index ++ " has an empty name"

namespace Config

def enforcement (c : Config) : Enforcement := .ofFlag c.enforce

/-- A configuration whose lists fit into the tables: the origins into the free slots, and no
capability is nameless. -/
def validate (c : Config) : Except ConfigError Unit :=
  if Origin.Registry.freeSlots < c.origins.length then
    .error (.tooManyOrigins c.origins.length Origin.Registry.freeSlots)
  else
    match c.capabilities.findIdx? (·.name == "") with
    | some index => .error (.emptyCapabilityName index)
    | none => .ok ()

def validated (c : Config) : Except ConfigError Config := c.validate.map fun _ => c

end Config
end InfoFlow

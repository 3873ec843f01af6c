import InfoFlow.Context.Policy
import InfoFlow.Saved.Origin
import InfoFlow.Node
import InfoFlow.Saved.Flow

/-! # The saved forms of contexts and nodes -/

namespace InfoFlow

open Json (record complete fields? variant)

/-! ### Capabilities, globals, errors, configurations and contexts -/

/-- The members of a saved capability. -/
def Capability.members (e : Capability) : List (String × Json) :=
  [("name", toJson e.name), ("bits", toJson e.bits), ("assigned_at_label", toJson e.assignedAt),
   ("declassified_to_label", toJson e.declassifiedTo)]

instance : Saved Capability where
  toJson e := record e.members
  ofJson? j := do
    let fields ← fields? (complete ["name", "bits", "assigned_at_label", "declassified_to_label"]) j
    return ⟨← fields.get? "name", ← fields.get? "bits", ← fields.get? "assigned_at_label",
      ← fields.get? "declassified_to_label"⟩

/-- The capability that a configuration lists: all but its name may be left out. -/
def Capability.ofSeed? (j : Json) : Option Capability := do
  let fields ← fields?
    [⟨"name", false⟩, ⟨"bits", true⟩, ⟨"assigned_at_label", true⟩, ⟨"declassified_to_label", true⟩] j
  return ⟨← fields.get? "name", ← fields.getD? "bits" 0, ← fields.getD? "assigned_at_label" 0,
    ← fields.getD? "declassified_to_label" 0⟩

instance : Saved CapabilityTable where
  toJson t := record [("entries", toJson t.entries), ("events", toJson t.log)]
  ofJson? j := do
    let fields ← fields? (complete ["entries", "events"]) j
    return ⟨← fields.get? "entries", ← fields.get? "events"⟩

instance : Saved GlobalsError where
  toJson
    | .argumentOutOfRange index slots =>
      variant "ArgumentOutOfRange" (record [("index", toJson index), ("capacity", toJson slots)])
  ofJson? j :=
    match j.variant? with
    | some ("ArgumentOutOfRange", content) => do
      let fields ← fields? (complete ["index", "capacity"]) content
      return .argumentOutOfRange (← fields.get? "index") (← fields.get? "capacity")
    | _ => none

instance : Saved Globals where
  toJson g :=
    record
      [("pc", toJson g.pc), ("return_label", toJson g.returnLabel),
       ("event_node_label", toJson g.eventNodeLabel), ("event_context_label", toJson g.eventContextLabel),
       ("argument_labels", toJson g.argumentLabels), ("abort", toJson g.abort), ("mode", toJson g.mode)]
  ofJson? j := do
    let fields ← fields?
      (complete ["pc", "return_label", "event_node_label", "event_context_label", "argument_labels",
        "abort", "mode"]) j
    return {
      pc := ← fields.get? "pc"
      returnLabel := ← fields.get? "return_label"
      eventNodeLabel := ← fields.get? "event_node_label"
      eventContextLabel := ← fields.get? "event_context_label"
      argumentLabels := ← fields.get? "argument_labels"
      abort := ← fields.get? "abort"
      mode := ← fields.get? "mode" }

instance : Saved PolicyError where
  toJson
    | .notPolicyContext pc => variant "NotPolicyContext" (record [("pc", toJson pc)])
    | .sensitiveUpgrade pc label =>
      variant "NsuViolation" (record [("pc", toJson pc), ("label", toJson label)])
    | .noRunningScript => .ofString "NoRunningScript"
  ofJson? j :=
    match j.unitVariant? with
    | some "NoRunningScript" => some .noRunningScript
    | _ =>
      match j.variant? with
      | some ("NotPolicyContext", content) => do
        let fields ← fields? (complete ["pc"]) content
        return .notPolicyContext (← fields.get? "pc")
      | some ("NsuViolation", content) => do
        let fields ← fields? (complete ["pc", "label"]) content
        return .sensitiveUpgrade (← fields.get? "pc") (← fields.get? "label")
      | _ => none

instance : Saved Config where
  toJson c :=
    record
      [("trace_id", toJson c.traceId), ("enforce_nsu", toJson c.enforce),
       ("policy_origins", toJson c.policyOrigins), ("origins", toJson c.origins),
       ("declassification", toJson c.capabilities)]
  ofJson? j := do
    let fields ← fields?
      [⟨"trace_id", true⟩, ⟨"enforce_nsu", true⟩, ⟨"policy_origins", true⟩, ⟨"origins", true⟩,
       ⟨"declassification", true⟩] j
    let default : Config := {}
    let capabilities ←
      match fields.find? "declassification" with
      | none => some default.capabilities
      | some (.array seeds) => seeds.mapM Capability.ofSeed?
      | some _ => none
    return {
      traceId := ← fields.getD? "trace_id" default.traceId
      enforce := ← fields.getD? "enforce_nsu" default.enforce
      policyOrigins := ← fields.getD? "policy_origins" default.policyOrigins
      origins := ← fields.getD? "origins" default.origins
      capabilities }

instance : Saved Context where
  toJson c :=
    record
      [("stack", toJson c.stack), ("registry", toJson c.registry), ("bit_table", toJson c.table),
       ("state", toJson c.globals), ("events", toJson c.log), ("running_scripts", toJson c.scripts.reverse)]
  ofJson? j := do
    let fields ← fields?
      (complete ["stack", "registry", "bit_table", "state", "events", "running_scripts"]) j
    let scripts : List String ← fields.get? "running_scripts"
    return {
      stack := ← fields.get? "stack"
      registry := ← fields.get? "registry"
      table := ← fields.get? "bit_table"
      globals := ← fields.get? "state"
      log := ← fields.get? "events"
      scripts := scripts.reverse }

/-! ### Node labels and node collections -/

instance : Saved Node where
  toJson n := toJson n.id
  ofJson? j := (ofJson? j).map Node.mk

/-- The node that a key names: its number in decimal, without leading zeros and escapes. -/
def Node.ofKey? (key : List Char) : Option Node :=
  if key.head? = some '0' ∧ key ≠ ['0'] then none else ofJson? (.number key)

/-- Labels are saved as an object with the nodes' numbers as its keys, which stand in increasing order.
An object that is read may give them in any order, and repeat them. -/
instance : Saved LabelMap where
  toJson m := .object (m.entries.map fun (node, label) => (Nat.toDigits 10 node.id.toNat, toJson label))
  ofJson?
    | .object members =>
      (members.mapM fun (key, value) => do return (← Node.ofKey? key, ← ofJson? value)).map LabelMap.ofList
    | _ => none

instance : Saved NodeStore where
  toJson s := record [("labels", toJson s.labels), ("revision", toJson s.revision)]
  ofJson? j := do
    let fields ← fields? (complete ["labels", "revision"]) j
    return ⟨← fields.get? "labels", ← fields.get? "revision"⟩

instance : Saved JoinCache where
  toJson c := record [("revision", toJson c.revision), ("prefix", toJson c.joins)]
  ofJson? j := do
    let fields ← fields? (complete ["revision", "prefix"]) j
    return ⟨← fields.get? "revision", ← fields.get? "prefix"⟩

instance : Saved NodeCollection where
  toJson c := record [("nodes", toJson c.nodes), ("cache", toJson c.cache)]
  ofJson? j := do
    let fields ← fields? (complete ["nodes", "cache"]) j
    return ⟨← fields.get? "nodes", ← fields.get? "cache"⟩

end InfoFlow

import InfoFlow.Label
import InfoFlow.Stack
import InfoFlow.Saved.Basic
import InfoFlow.Event

/-! # The saved forms of labels, stacks and logs -/

namespace InfoFlow

open Json (record complete fields?)

/-! ### Labels, labeled values and stacks -/

instance : Saved Label where
  toJson l := record [("value", .ofNat l.sources.toNat), ("deferred", toJson l.deferred)]
  ofJson? j := do
    let fields ← fields? (complete ["value", "deferred"]) j
    let value : UInt64 ← fields.get? "value"
    let deferred ← fields.get? "deferred"
    return ⟨value.toBitVec, deferred⟩

/-- The stable name of a mode. -/
def Enforcement.name : Enforcement → String
  | .enforce => "enforce"
  | .permissive => "permissive"

instance : Saved Enforcement := .ofNames Enforcement.name [.enforce, .permissive]

instance {α : Type} [Saved α] : Saved (Labeled α) where
  toJson v :=
    record [("value", toJson v.value), ("label", toJson v.label), ("object_label", toJson v.objectLabel)]
  ofJson? j := do
    let fields ← fields? (complete ["value", "label", "object_label"]) j
    return ⟨← fields.get? "value", ← fields.get? "label", ← fields.get? "object_label"⟩

instance : Saved Register where
  toJson r := toJson r.index
  ofJson? j := (ofJson? j).map Register.mk

/-- The names of the fields of a frame and of a region, in their order. -/
def Frame.fieldNames : List String :=
  ["label", "post_dominator", "guard_register", "has_exception_handler", "is_exception_edge",
   "is_branch_edge", "is_loop_edge"]

instance : Saved Frame where
  toJson f :=
    record
      [("label", toJson f.label), ("post_dominator", toJson f.exit),
       ("guard_register", toJson f.guardRegister), ("has_exception_handler", toJson f.functionHandler),
       ("is_exception_edge", toJson f.exceptionEdge), ("is_branch_edge", toJson f.branchEdge),
       ("is_loop_edge", toJson f.loopEdge)]
  ofJson? j := do
    let fields ← fields? (complete Frame.fieldNames) j
    return {
      label := ← fields.get? "label"
      exit := ← fields.get? "post_dominator"
      guardRegister := ← fields.get? "guard_register"
      functionHandler := ← fields.get? "has_exception_handler"
      exceptionEdge := ← fields.get? "is_exception_edge"
      branchEdge := ← fields.get? "is_branch_edge"
      loopEdge := ← fields.get? "is_loop_edge" }

instance : Saved Region where
  toJson r :=
    record
      [("label", toJson r.label), ("post_dominator", toJson r.exit),
       ("guard_register", toJson r.guardRegister), ("has_exception_handler", toJson r.functionHandler),
       ("is_exception_edge", toJson r.exceptionEdge), ("is_branch_edge", toJson r.branchEdge),
       ("is_loop_edge", toJson r.loopEdge)]
  ofJson? j := do
    let fields ← fields? (complete Frame.fieldNames) j
    return {
      label := ← fields.get? "label"
      exit := ← fields.get? "post_dominator"
      guardRegister := ← fields.get? "guard_register"
      functionHandler := ← fields.get? "has_exception_handler"
      exceptionEdge := ← fields.get? "is_exception_edge"
      branchEdge := ← fields.get? "is_branch_edge"
      loopEdge := ← fields.get? "is_loop_edge" }

instance : Saved Stack where
  toJson s := record [("frames", toJson s.frames)]
  ofJson? j := do
    let fields ← fields? (complete ["frames"]) j
    let frames ← fields.get? "frames"
    Stack.ofFrames? frames

/-! ### Events and logs -/

instance : Saved Component :=
  .ofNames Component.name [.originRegistry, .declassificationTable, .controlFlowStack, .policy, .loader]

instance : Saved Activity :=
  .ofNames Activity.name
    [.originRegistered, .policyOriginRegistered, .capabilityRecorded, .labelAssigned, .labelUpgraded,
     .eventContextUpdated, .scriptEntered, .scriptExited, .exceptionUnwound]

instance : Saved Outcome := .ofNames Outcome.name [.pass, .dropped, .fallback, .denied, .blocked]

instance : Saved Event where
  toJson e :=
    record
      [("trace_id", toJson e.traceId), ("component", toJson e.component), ("event", toJson e.activity),
       ("outcome", toJson e.outcome), ("error_code", toJson e.errorCode), ("subject", toJson e.subject),
       ("label", toJson e.label), ("pc", toJson e.pc)]
  ofJson? j := do
    let fields ← fields?
      (complete ["trace_id", "component", "event", "outcome", "error_code", "subject", "label", "pc"]) j
    return {
      traceId := ← fields.get? "trace_id"
      component := ← fields.get? "component"
      activity := ← fields.get? "event"
      outcome := ← fields.get? "outcome"
      errorCode := ← fields.get? "error_code"
      subject := ← fields.get? "subject"
      label := ← fields.get? "label"
      pc := ← fields.get? "pc" }

instance : Saved EventLog where
  toJson log := record [("trace_id", toJson log.traceId), ("events", toJson log.events)]
  ofJson? j := do
    let fields ← fields? (complete ["trace_id", "events"]) j
    return ⟨← fields.get? "trace_id", ← fields.get? "events"⟩

end InfoFlow

import InfoFlow.Label

/-! # Security globals

What the host reads outside the stack of regions: a copy of the program-counter label, the labels of
the last returned value, of the event's node and of the event's context, the labels of the call's
arguments, the request to stop, and the mode of enforcement. -/

namespace InfoFlow

def argumentSlots : Nat := 16

structure Globals where
  /-- A copy of the head's label. -/
  pc : Label
  returnLabel : Label
  eventNodeLabel : Label
  eventContextLabel : Label
  argumentLabels : Vector Label argumentSlots
  /-- A write was blocked and the host has not acknowledged it. -/
  abort : Bool
  mode : Enforcement
deriving DecidableEq

inductive GlobalsError where
  | argumentOutOfRange (index slots : Nat)
deriving DecidableEq

def GlobalsError.code : GlobalsError → String
  | .argumentOutOfRange _ _ => "argument_out_of_range"

def GlobalsError.message : GlobalsError → String
  | .argumentOutOfRange index slots =>
    "argument index " ++ toString index ++ " exceeds the " ++ toString slots ++ " label slots"

namespace Globals

def initial (mode : Enforcement) : Globals :=
  { pc := .bottom
    returnLabel := .bottom
    eventNodeLabel := .bottom
    eventContextLabel := .bottom
    argumentLabels := Vector.replicate argumentSlots .bottom
    abort := false
    mode }

def argumentLabel (g : Globals) (index : Nat) : Except GlobalsError Label :=
  match g.argumentLabels[index]? with
  | some label => .ok label
  | none => .error (.argumentOutOfRange index argumentSlots)

def setArgumentLabel (g : Globals) (index : Nat) (label : Label) : Except GlobalsError Globals :=
  if h : index < argumentSlots then .ok { g with argumentLabels := g.argumentLabels.set index label h }
  else .error (.argumentOutOfRange index argumentSlots)

/-- Makes every argument public, before the next call. -/
def clearArgumentLabels (g : Globals) : Globals :=
  { g with argumentLabels := Vector.replicate argumentSlots .bottom }

def requestAbort (g : Globals) : Globals := { g with abort := true }

def clearAbort (g : Globals) : Globals := { g with abort := false }

end Globals
end InfoFlow

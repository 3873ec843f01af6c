/-! # Labels

A label says which sources influenced a value or a point of execution. It is a set of at most 64
sources together with a mark that its upgrade is deferred: whether the upgrade is safe is not yet
decided. Labels are joined by union and ordered by inclusion of their sources. -/

namespace InfoFlow

/-- A set of sources, source `i` being bit `i`, and the mark of a deferred upgrade. -/
structure Label where
  sources : BitVec 64
  deferred : Bool
deriving DecidableEq, Inhabited

namespace Label

def ofSources (sources : BitVec 64) : Label := ⟨sources, false⟩

/-- The label of public information: it has no source. -/
def bottom : Label := ofSources 0

/-- The label of code that runs inside a trusted policy script. -/
def policy : Label := ofSources 1

def secret : Label := ofSources 2

/-- The label of a registry slot: slot `n + 1` owns source `n`. Slot 0 stands for no origin, and
slots above 64 have no source left. -/
def ofSlot (slot : Nat) : Label :=
  if slot = 0 ∨ 64 < slot then bottom else ofSources (BitVec.twoPow 64 (slot - 1))

/-- A public label has no source; its mark does not matter. -/
def isPublic (l : Label) : Bool := l.sources == 0

/-- A policy label has the policy source and no other; its mark does not matter. -/
def isPolicy (l : Label) : Bool := l.sources == policy.sources

def defer (l : Label) : Label := { l with deferred := true }

def settle (l : Label) : Label := { l with deferred := false }

/-- The least upper bound: every source of either label, deferred if one of them is. -/
def join (a b : Label) : Label := ⟨a.sources ||| b.sources, a.deferred || b.deferred⟩

/-- The sources of `a` that `b` lacks; the mark of `a` stays. -/
def without (a b : Label) : Label := { a with sources := a.sources &&& ~~~b.sources }

/-- Every source of `a` is one of `b`. -/
def FlowsTo (a b : Label) : Prop := a.sources ||| b.sources = b.sources

instance (a b : Label) : Decidable (a.FlowsTo b) :=
  inferInstanceAs (Decidable (a.sources ||| b.sources = b.sources))

def StrictlyBelow (a b : Label) : Prop := a.FlowsTo b ∧ a ≠ b

def StrictlyAbove (a b : Label) : Prop := b.FlowsTo a ∧ a ≠ b

instance (a b : Label) : Decidable (a.StrictlyBelow b) :=
  inferInstanceAs (Decidable (a.FlowsTo b ∧ a ≠ b))

instance (a b : Label) : Decidable (a.StrictlyAbove b) :=
  inferInstanceAs (Decidable (b.FlowsTo a ∧ a ≠ b))

def sourceList (l : Label) : List Nat := (List.range 64).filter (l.sources.getLsbD ·)

def joinAll (labels : List Label) : Label := labels.foldl join bottom

/-- A label is shown as its source set in lower-case hexadecimal, followed by a star if deferred. -/
def text (l : Label) : String :=
  "0x" ++ String.ofList (Nat.toDigits 16 l.sources.toNat) ++ (if l.deferred then "*" else "")

end Label

/-! ### The no-sensitive-upgrade rule

Whether a write may happen depends on the program-counter label and on the label of the place that is
written. A place that lacks a source of the program counter must not be written: that it was not
written on the other branch would show the source. -/

inductive Enforcement where
  | enforce
  | permissive
deriving DecidableEq, Inhabited

namespace Enforcement

def ofFlag (flag : Bool) : Enforcement := if flag then .enforce else .permissive

def isEnforcing (mode : Enforcement) : Bool := mode == .enforce

/-- May a place labeled `target` be written under `pc`? Policy code may write anywhere, nobody else
may write a place that belongs to policy, and otherwise `pc` has to flow to `target`. -/
def permits (mode : Enforcement) (pc target : Label) : Bool :=
  match mode with
  | .permissive => true
  | .enforce => pc.isPolicy || (!target.isPolicy && decide (pc.FlowsTo target))

end Enforcement

/-! ### Labeled values

A value carries the label of what influenced it. An object also carries a label of its own, which
covers its identity and its set of properties. -/

/-- A value with its label, and with the label of the object it refers to, if it is one. -/
structure Labeled (α : Type) where
  value : α
  label : Label
  objectLabel : Option Label
deriving DecidableEq

namespace Labeled

variable {α β : Type}

def primitive (value : α) (label : Label) : Labeled α := ⟨value, label, none⟩

def object (value : α) (label objectLabel : Label) : Labeled α := ⟨value, label, some objectLabel⟩

/-- A value that nothing influenced. -/
def ofPublic (value : α) : Labeled α := primitive value .bottom

def isObject (v : Labeled α) : Bool := v.objectLabel.isSome

def map (f : α → β) (v : Labeled α) : Labeled β := ⟨f v.value, v.label, v.objectLabel⟩

/-- Replaces the label of the value only. -/
def setLabel (v : Labeled α) (label : Label) : Labeled α := { v with label }

def mapObjectLabel (f : Label → Label) (v : Labeled α) : Labeled α :=
  { v with objectLabel := v.objectLabel.map f }

/-- Replaces the label and the object label, if there is one. -/
def bind (v : Labeled α) (label : Label) : Labeled α := (v.setLabel label).mapObjectLabel fun _ => label

def raise (v : Labeled α) (label : Label) : Labeled α :=
  (v.setLabel (v.label.join label)).mapObjectLabel (·.join label)

end Labeled
end InfoFlow

import InfoFlow.Event

/-! # The declassification table

The table records, for up to 63 named entities, a mask of capabilities, the label of the context that
created the record and the label that the entity may be lowered to. It only records; when a label is
lowered is the host's business. -/

namespace InfoFlow

structure Capability where
  name : String
  bits : UInt64
  /-- The sources of the context that created the record. -/
  assignedAt : UInt64
  /-- The sources that remain when the entity is declassified. -/
  declassifiedTo : UInt64
deriving DecidableEq

/-- The records in the order of their creation, behind a null record that has no name, and the events
not yet collected. -/
structure CapabilityTable where
  entries : List Capability
  log : EventLog
deriving DecidableEq

namespace CapabilityTable

/-- How many records there are room for, the null record included. -/
def capacity : Nat := 64

def empty (traceId : String) : CapabilityTable := ⟨[⟨"", 0, 0, 0⟩], .empty traceId⟩

def size (t : CapabilityTable) : Nat := t.entries.length

def isEmpty (t : CapabilityTable) : Bool := t.size ≤ 1

def isFull (t : CapabilityTable) : Bool := capacity ≤ t.size

/-- The position of a name; the null record has none. -/
def index? (t : CapabilityTable) (name : String) : Option Nat :=
  if name = "" then none else ((t.entries.drop 1).findIdx? (·.name == name)).map (· + 1)

/-- The named record at a position; the null record is none. -/
def named? (t : CapabilityTable) (index : Nat) : Option Capability :=
  if index = 0 then none else t.entries[index]?

def bitsAt? (t : CapabilityTable) (index : Nat) : Option UInt64 := (t.named? index).map (·.bits)

def bits? (t : CapabilityTable) (name : String) : Option UInt64 :=
  (t.index? name).bind fun index => (t.entries[index]?).map (·.bits)

def assignedAt? (t : CapabilityTable) (index : Nat) : Option UInt64 := (t.named? index).map (·.assignedAt)

def declassifiedTo? (t : CapabilityTable) (index : Nat) : Option UInt64 :=
  (t.named? index).map (·.declassifiedTo)

def refuse (t : CapabilityTable) (name : String) (code : String) (outcome : Outcome) : CapabilityTable :=
  let refusal :=
    { t.log.event .declassificationTable .capabilityRecorded outcome with
      errorCode := some code, subject := some name }
  { t with log := t.log.push refusal }

/-- Creates a record and gives its position. A known name keeps the record it has. -/
def put (t : CapabilityTable) (entry : Capability) : Option Nat × CapabilityTable :=
  if entry.name = "" then (none, t.refuse entry.name invalidNameCode .denied)
  else
    match t.index? entry.name with
    | some index => (some index, t)
    | none =>
      if t.isFull then (none, t.refuse entry.name tableFullCode .dropped)
      else
        let success :=
          { t.log.event .declassificationTable .capabilityRecorded .pass with subject := some entry.name }
        (some t.size, { t with entries := t.entries ++ [entry], log := t.log.push success })

def setBitsAt (t : CapabilityTable) (index : Nat) (bits : UInt64) : Bool × CapabilityTable :=
  if 0 < index ∧ index < t.size then
    (true, { t with entries := t.entries.modify index fun e => { e with bits } })
  else (false, t)

def setBits (t : CapabilityTable) (name : String) (bits : UInt64) : Bool × CapabilityTable :=
  match t.index? name with
  | some index => t.setBitsAt index bits
  | none => (false, t)

def drain (t : CapabilityTable) : List Event × CapabilityTable :=
  (t.log.events, { t with log := t.log.drained })

end CapabilityTable
end InfoFlow

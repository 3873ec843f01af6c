import InfoFlow.Event
import InfoFlow.Origin.Url

/-! # The origin registry

Each origin owns one slot of the registry, and with it one source, in the order of registration. The
first three slots are reserved: for no origin, for policy and for the secret source. When all 64 slots
are taken, new origins are refused and an unknown origin counts as policy, the most sensitive label.
Policy origins stand on a list of their own and take no slot. -/

namespace InfoFlow.Origin

/-- A slot of the registry: what identifies the origin, and the label of its source. -/
structure Entry where
  key : String
  label : Label
deriving DecidableEq

inductive Registration where
  | policyRegistered
  | policyAlreadyPresent
  | registered (slot : Nat) (label : Label)
  | alreadyRegistered (slot : Nat) (label : Label)
  /-- The registry is full and nothing was recorded. -/
  | dropped
deriving DecidableEq

def Registration.label? : Registration → Option Label
  | .policyRegistered | .policyAlreadyPresent => some .policy
  | .registered _ label | .alreadyRegistered _ label => some label
  | .dropped => none

structure Registry where
  entries : List Entry
  policyOrigins : List String
  log : EventLog
deriving DecidableEq

namespace Registry

/-- How many slots there are, reserved ones included. -/
def capacity : Nat := 64

def reservedKeys : List String := ["NULL", "policy", "secret"]

def freeSlots : Nat := capacity - reservedKeys.length

def empty (traceId : String) : Registry :=
  { entries := reservedKeys.mapIdx fun slot key => ⟨key, .ofSlot slot⟩
    policyOrigins := []
    log := .empty traceId }

def size (r : Registry) : Nat := r.entries.length

def isFull (r : Registry) : Bool := capacity ≤ r.size

def remaining (r : Registry) : Nat := capacity - r.size

/-- A URL belongs to a policy origin if it is listed as it stands or has the domain of a listed one. -/
def isPolicyOrigin (r : Registry) (url : String) : Bool :=
  r.policyOrigins.any fun origin => origin == url || (domain url != "" && domain origin == domain url)

/-- The newest slot with the given key, searching among entries that start at slot `start`. -/
def newestSlot? (key : String) : Nat → List Entry → Option Nat
  | _, [] => none
  | start, e :: rest => (newestSlot? key (start + 1) rest).or (if e.key = key then some start else none)

def slot? (r : Registry) (url : String) : Option Nat := newestSlot? (domain url) 0 r.entries

def owned? (r : Registry) (url : String) : Option (Nat × Label) :=
  (r.slot? url).bind fun slot => (r.entries[slot]?).map fun e => (slot, e.label)

def lookup (r : Registry) (url : String) : Option Label :=
  if r.isPolicyOrigin url then some .policy
  else if isNull url then some .bottom
  else (r.owned? url).map Prod.snd

/-- Gives the next slot to a key and records that; in a full registry only the refusal is recorded. -/
def append (r : Registry) (key : String) : Option (Nat × Label) × Registry :=
  if r.isFull then
    let refusal :=
      { r.log.event .originRegistry .originRegistered .dropped with
        errorCode := some registryFullCode, subject := some key }
    (none, { r with log := r.log.push refusal })
  else
    let label := Label.ofSlot r.size
    let success :=
      { r.log.event .originRegistry .originRegistered .pass with subject := some key, label := some label }
    (some (r.size, label), { r with entries := r.entries ++ [⟨key, label⟩], log := r.log.push success })

/-- Puts a URL on the list of policy origins, unless it stands there already. -/
def putPolicy (r : Registry) (url : String) : Registration × Registry :=
  if r.policyOrigins.contains url then (.policyAlreadyPresent, r)
  else
    let success :=
      { r.log.event .originRegistry .policyOriginRegistered .pass with
        subject := some url, label := some .policy }
    (.policyRegistered, { r with policyOrigins := r.policyOrigins ++ [url], log := r.log.push success })

/-- Gives a URL's origin a slot, unless it has one or names no origin. -/
def putOrigin (r : Registry) (url : String) : Registration × Registry :=
  if isNull url then (.alreadyRegistered 0 .bottom, r)
  else
    match r.owned? url with
    | some (slot, label) => (.alreadyRegistered slot label, r)
    | none =>
      match r.append (domain url) with
      | (some (slot, label), r) => (.registered slot label, r)
      | (none, r) => (.dropped, r)

def put (r : Registry) (url : String) (asPolicy : Bool) : Registration × Registry :=
  if asPolicy then r.putPolicy url else r.putOrigin url

/-- The label of an origin on first sight: that of the next slot, or the policy label if there is none. -/
def firstLabel (r : Registry) (url : String) : Label × Registry :=
  match r.append (domain url) with
  | (some (_, label), r) => (label, r)
  | (none, r) =>
    let fallback :=
      { r.log.event .originRegistry .originRegistered .fallback with
        errorCode := some registryFullCode, subject := some url, label := some .policy }
    (.policy, { r with log := r.log.push fallback })

/-- The label of a URL's origin, which is registered on first sight. -/
def getLabel (r : Registry) (url : String) : Label × Registry :=
  if r.isPolicyOrigin url then (.policy, r)
  else if isNull url then (.bottom, r)
  else
    match r.owned? url with
    | some (_, label) => (label, r)
    | none => r.firstLabel url

theorem getLabel_eq (r : Registry) (url : String) :
    r.getLabel url = (r.lookup url).elim (r.firstLabel url) fun label => (label, r) := by
  unfold getLabel lookup
  split
  · rfl
  · split
    · rfl
    · cases r.owned? url <;> rfl

theorem getLabel_of_lookup {r : Registry} {url : String} {label : Label} (h : r.lookup url = some label) :
    r.getLabel url = (label, r) := by
  rw [getLabel_eq, h]
  rfl

theorem getLabel_of_unknown {r : Registry} {url : String} (h : r.lookup url = none) :
    r.getLabel url = r.firstLabel url := by
  rw [getLabel_eq, h]
  rfl

def drain (r : Registry) : List Event × Registry := (r.log.events, { r with log := r.log.drained })

end Registry
end InfoFlow.Origin

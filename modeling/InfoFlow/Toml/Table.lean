/-! # TOML tables

A TOML document is a tree of tables. A table is written under a header, comes about because a header or
a key names something inside it, or stands closed between braces. How it came about decides which later
lines may add to it. -/

namespace InfoFlow

inductive Toml.Origin where
  /-- Written between braces: nothing is added later. -/
  | braces
  /-- Written under a header of its own. -/
  | header
  /-- Named on the way by a header; a header of its own may still follow. -/
  | impliedByHeader
  /-- Named on the way by a dotted key; other dotted keys may add to it. -/
  | impliedByKey
deriving DecidableEq

/-- A TOML value. Floats and dates are only checked when they are read. -/
inductive Toml where
  | string (value : String)
  | integer (value : Int)
  | boolean (value : Bool)
  | float
  | dateTime
  | array (items : List Toml)
  | table (origin : Toml.Origin) (members : List (String × Toml))
  /-- The tables written under headers of one array, each with its members. -/
  | tables (elements : List (List (String × Toml)))

namespace Toml

/-- The members of a table, in the order of their appearance. -/
abbrev Members := List (String × Toml)

def Members.replace (members : Members) (key : String) (value : Toml) : Members :=
  members.map fun m => if m.1 = key then (key, value) else m

def changeLast (change : Members → Option Members) : List Members → Option (List Members)
  | [] => none
  | [last] => (change last).map ([·])
  | element :: rest => (changeLast change rest).map (element :: ·)

/-- Adds the value of a dotted key to a table. The tables on the way are made where they are missing.
The table that takes the value must have come about by dotted keys. -/
def Members.insert (members : Members) (key : String) (path : List String) (value : Toml) : Option Members :=
  match path, members.lookup key with
  | [], none => some (members ++ [(key, value)])
  | [], some _ => none
  | next :: path, none => do
    let inner ← Members.insert [] next path value
    return members ++ [(key, .table .impliedByKey inner)]
  | next :: path, some (.table .impliedByKey inner) => do
    let inner ← Members.insert inner next path value
    return members.replace key (.table .impliedByKey inner)
  | next :: after :: path, some (.table .impliedByHeader inner) => do
    let inner ← Members.insert inner next (after :: path) value
    return members.replace key (.table .impliedByHeader inner)
  | next :: after :: path, some (.tables elements) => do
    let elements ← changeLast (fun inner => Members.insert inner next (after :: path) value) elements
    return members.replace key (.tables elements)
  | _, _ => none
termination_by structural path

/-- Applies a change to the table that a header's path leads to. The tables on the way are made where
they are missing; of an array of tables the last one is meant. -/
def Members.changeAt (change : Members → Option Members) : List String → Members → Option Members
  | [], members => change members
  | key :: path, members =>
    match members.lookup key with
    | none => do
      let inner ← Members.changeAt change path []
      return members ++ [(key, .table .impliedByHeader inner)]
    | some (.table .braces _) => none
    | some (.table origin inner) => do
      let inner ← Members.changeAt change path inner
      return members.replace key (.table origin inner)
    | some (.tables elements) => do
      let elements ← changeLast (Members.changeAt change path) elements
      return members.replace key (.tables elements)
    | some _ => none

/-- Starts the table of a header inside its parent. A table is started once. -/
def Members.startTable (key : String) (parent : Members) : Option Members :=
  match parent.lookup key with
  | none => some (parent ++ [(key, .table .header [])])
  | some (.table .impliedByHeader inner) => some (parent.replace key (.table .header inner))
  | some _ => none

/-- Starts the next table of an array of tables inside the array's parent. -/
def Members.startElement (key : String) (parent : Members) : Option Members :=
  match parent.lookup key with
  | none => some (parent ++ [(key, .tables [[]])])
  | some (.tables elements) => some (parent.replace key (.tables (elements ++ [[]])))
  | some _ => none

end Toml
end InfoFlow

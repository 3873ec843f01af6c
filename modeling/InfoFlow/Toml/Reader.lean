import InfoFlow.Toml.Scalar

/-! # Reading TOML documents

A document is a list of statements, one to a line: entries of the current table, and headers, which
choose the current table. -/

namespace InfoFlow.Toml

open Scanner

/-- An array of what `value` reads; a comma may stand behind the last item. -/
def scanArray (value : Scanner Toml) : Scanner Toml := do
  char '['
  let items ← separated (do gap; let item ← value; gap; return item) (char ',')
  if !items.isEmpty then
    let _ ← optional (char ',')
  gap
  char ']'
  return .array items

def scanEntry (value : Scanner Toml) : Scanner (String × List String × Toml) := do
  let (key, path) ← dottedKey
  char '='
  blanks
  return (key, path, ← value)

/-- A table in braces, which stands on one line. -/
def scanInlineTable (value : Scanner Toml) : Scanner Toml := do
  char '\x7b'
  let entries ← separated (do let found ← scanEntry value; blanks; return found) (char ',')
  blanks
  char '\x7d'
  let members ← entries.foldlM (fun (members : Members) (key, path, value) => members.insert key path value) []
  return .table .braces members

/-- A value in which arrays and tables are nested at most `levels` deep. -/
def scanValue : Nat → Scanner Toml
  | 0 => scanScalar
  | levels + 1 => scanArray (scanValue levels) <|> scanInlineTable (scanValue levels) <|> scanScalar

inductive Statement where
  | header (key : String) (path : List String)
  | elementHeader (key : String) (path : List String)
  | entry (key : String) (path : List String) (value : Toml)

def scanStatement : Scanner Statement :=
  (do
    literal ['[', '[']
    let (key, path) ← dottedKey
    literal [']', ']']
    return .elementHeader key path)
  <|> (do
    char '['
    let (key, path) ← dottedKey
    char ']'
    return .header key path)
  <|> do
    let (key, path, value) ← scanEntry (scanValue maxNesting)
    return .entry key path value

def scanLine : Scanner (Option Statement) := do
  if (← get).isEmpty then failure
  blanks
  let found ← optional scanStatement
  lineEnd
  return found

/-- The parts of a path without the last one, and the last one. -/
def splitPath (key : String) : List String → List String × String
  | [] => ([], key)
  | next :: path =>
    let (before, last) := splitPath next path
    (key :: before, last)

/-- The document so far, and the path of its current table. -/
structure Draft where
  root : Members := []
  current : List String := []

def Draft.add (draft : Draft) : Statement → Option Draft
  | .header key path => do
    let (parent, last) := splitPath key path
    return ⟨← Members.changeAt (Members.startTable last) parent draft.root, key :: path⟩
  | .elementHeader key path => do
    let (parent, last) := splitPath key path
    return ⟨← Members.changeAt (Members.startElement last) parent draft.root, key :: path⟩
  | .entry key path value => do
    let add := fun members => Members.insert members key path value
    return { draft with root := ← Members.changeAt add draft.current draft.root }

/-- The members of the outermost table of a document. A byte-order mark may stand in front. -/
def parse (text : List Char) : Option Members := do
  let read : Scanner (List (Option Statement)) := do
    let _ ← optional (char '\uFEFF')
    let lines ← many scanLine
    finish
    return lines
  let (lines, _) ← read.run text
  let draft ← (lines.filterMap id).foldlM Draft.add {}
  return draft.root

end InfoFlow.Toml

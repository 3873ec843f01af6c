import InfoFlow.Json.Basic

/-! # Strings, records and variants in JSON

What the strings, objects and arrays of a value stand for. -/

namespace InfoFlow.Json

/-! ### Escapes in JSON strings

A string is read one character at a time by a small automaton. It emits a character where one is
complete, or a 16-bit unit where four hexadecimal digits name one. The text between two quotes is
well formed if the automaton accepts it. It has a meaning if, besides, every unit that is half of a
pair stands beside its other half. -/

inductive EscapeState where
  | plain
  | escape
  /-- `missing + 1` hexadecimal digits are still to come; those read so far write `value`. -/
  | hex (missing value : Nat)
deriving DecidableEq

inductive StringElement where
  | char (c : Char)
  | unit (value : Nat)
deriving DecidableEq

def hexDigit? (c : Char) : Option Nat :=
  if '0' ≤ c ∧ c ≤ '9' then some (c.toNat - '0'.toNat)
  else if 'a' ≤ c ∧ c ≤ 'f' then some (c.toNat - 'a'.toNat + 10)
  else if 'A' ≤ c ∧ c ≤ 'F' then some (c.toNat - 'A'.toNat + 10)
  else none

def shortEscape? : Char → Option Char
  | '"' => some '"'
  | '\\' => some '\\'
  | '/' => some '/'
  | 'b' => some '\x08'
  | 'f' => some '\x0c'
  | 'n' => some '\n'
  | 'r' => some '\r'
  | 't' => some '\t'
  | _ => none

/-- One character inside a string; control characters and quotes do not stand there bare. -/
def EscapeState.step : EscapeState → Char → Option (EscapeState × Option StringElement)
  | .plain, c =>
    if c = '\\' then some (.escape, none)
    else if c = '"' ∨ c < ' ' then none
    else some (.plain, some (.char c))
  | .escape, c =>
    if c = 'u' then some (.hex 3 0, none)
    else (shortEscape? c).map fun e => (.plain, some (.char e))
  | .hex missing value, c =>
    (hexDigit? c).map fun d =>
      match missing with
      | 0 => (.plain, some (.unit (16 * value + d)))
      | missing + 1 => (.hex missing (16 * value + d), none)

/-- The text up to the closing quote, and what follows that quote. -/
def scanString : EscapeState → List Char → Option (List Char × List Char)
  | _, [] => none
  | state, c :: rest =>
    if state = .plain ∧ c = '"' then some ([], rest)
    else (state.step c).bind fun (next, _) =>
      (scanString next rest).map fun (raw, rest) => (c :: raw, rest)

/-- What the automaton emits on a whole text; the text must not end inside an escape. -/
def elements : EscapeState → List Char → Option (List StringElement)
  | state, [] => if state = .plain then some [] else none
  | state, c :: rest =>
    (state.step c).bind fun (next, emitted) =>
      (elements next rest).map fun found => emitted.toList ++ found

def isLeadUnit (u : Nat) : Bool := 0xD800 ≤ u && u < 0xDC00

def isTrailUnit (u : Nat) : Bool := 0xDC00 ≤ u && u < 0xE000

/-- Joins surrogate pairs; a half that stands alone has no meaning. -/
def joinUnits : List StringElement → Option (List Char)
  | [] => some []
  | .char c :: rest => (joinUnits rest).map (c :: ·)
  | .unit u :: rest =>
    if isTrailUnit u then none
    else if isLeadUnit u then
      match rest with
      | .unit v :: rest =>
        if isTrailUnit v then
          (joinUnits rest).map (Char.ofNat (0x10000 + 0x400 * (u - 0xD800) + (v - 0xDC00)) :: ·)
        else none
      | _ => none
    else (joinUnits rest).map (Char.ofNat u :: ·)

def unescape (raw : List Char) : Option (List Char) := (elements .plain raw).bind joinUnits

/-- How a character is written: quotes, backslashes and control characters are escaped, the latter by
their short form if there is one and else by two hexadecimal digits. -/
def escapeChar (c : Char) : List Char :=
  match c with
  | '"' => ['\\', '"']
  | '\\' => ['\\', '\\']
  | '\x08' => ['\\', 'b']
  | '\x0c' => ['\\', 'f']
  | '\n' => ['\\', 'n']
  | '\r' => ['\\', 'r']
  | '\t' => ['\\', 't']
  | c =>
    if c < ' ' then
      ['\\', 'u', '0', '0', Nat.digitChar (c.toNat / 16), Nat.digitChar (c.toNat % 16)]
    else [c]

def escape (text : List Char) : List Char := text.flatMap escapeChar

def ofString (s : String) : Json := .string (escape s.toList)

def string? : Json → Option String
  | .string raw => (unescape raw).map String.ofList
  | _ => none

/-! ### Records and variants in JSON

A record is written as an object, whose members may stand in any order and among others, or as an
array of its fields in their order. A variant is an object with the variant's name as its only key; a
variant without contents may also be its name alone. -/

/-- A field of a record: its name, and whether it may be missing at the end of an array. -/
structure Field where
  name : String
  trailing : Bool := false

abbrev Fields := List (String × Json)

/-- The members of an object with their keys resolved; every key must have a meaning. -/
def resolveKeys (members : List (List Char × Json)) : Option Fields :=
  members.mapM fun (key, value) => (unescape key).map fun name => (String.ofList name, value)

/-- The fields of a record of the given shape. An object gives no known field twice and its other
members are ignored. An array gives all fields and nothing more, except that trailing ones may be
missing. -/
def fields? (shape : List Field) : Json → Option Fields
  | .object members =>
    (resolveKeys members).bind fun resolved =>
      let known := resolved.filter fun (name, _) => shape.any (·.name == name)
      if (known.map Prod.fst).Nodup then some known else none
  | .array items =>
    if items.length ≤ shape.length ∧ (shape.drop items.length).all (·.trailing) then
      some ((shape.map (·.name)).zip items)
    else none
  | _ => none

def Fields.find? (fields : Fields) (name : String) : Option Json := fields.lookup name

def unitVariant? : Json → Option String
  | .object [(key, .null)] => (unescape key).map String.ofList
  | j => j.string?

def variant? : Json → Option (String × Json)
  | .object [(key, content)] => (unescape key).map fun name => (String.ofList name, content)
  | _ => none

def record (members : List (String × Json)) : Json :=
  .object (members.map fun (name, value) => (escape name.toList, value))

def variant (name : String) (content : Json) : Json := record [(name, content)]

end InfoFlow.Json

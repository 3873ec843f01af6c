import InfoFlow.Json.Record

/-! # Reading JSON

A text is one value with nothing but blanks around it. Every scanner gives what it has read together
with the text that follows. The functions for values, items and members call one another; their bound
is twice the length of the text, since of two nested calls at least one reads a character first. -/

namespace InfoFlow.Json

def isBlank (c : Char) : Bool := c == ' ' || c == '\n' || c == '\r' || c == '\t'

def skipBlanks (cs : List Char) : List Char := cs.dropWhile isBlank

def scanDigits (cs : List Char) : List Char × List Char := (cs.takeWhile Char.isDigit, cs.dropWhile Char.isDigit)

def scanDigits1 (cs : List Char) : Option (List Char × List Char) :=
  match scanDigits cs with
  | ([], _) => none
  | found => some found

/-- The digits before the point: a leading zero stands alone. -/
def scanWhole (cs : List Char) : Option (List Char × List Char) :=
  match scanDigits cs with
  | ([], _) => none
  | ('0' :: _ :: _, _) => none
  | found => some found

def scanFraction : List Char → Option (List Char × List Char)
  | '.' :: cs => (scanDigits1 cs).map fun (ds, rest) => ('.' :: ds, rest)
  | cs => some ([], cs)

def scanSign : List Char → List Char × List Char
  | '+' :: cs => (['+'], cs)
  | '-' :: cs => (['-'], cs)
  | cs => ([], cs)

def scanExponent : List Char → Option (List Char × List Char)
  | [] => some ([], [])
  | c :: cs =>
    if c = 'e' ∨ c = 'E' then
      let (sign, cs) := scanSign cs
      (scanDigits1 cs).map fun (ds, rest) => (c :: sign ++ ds, rest)
    else some ([], c :: cs)

/-- A number without its minus sign. -/
def scanUnsigned (cs : List Char) : Option (List Char × List Char) := do
  let (whole, cs) ← scanWhole cs
  let (fraction, cs) ← scanFraction cs
  let (exponent, cs) ← scanExponent cs
  return (whole ++ fraction ++ exponent, cs)

def scanNumber : List Char → Option (List Char × List Char)
  | '-' :: cs => (scanUnsigned cs).map fun (lexeme, rest) => ('-' :: lexeme, rest)
  | cs => scanUnsigned cs

/-- A value that has no parts and is no string. -/
def readScalar : List Char → Option (Json × List Char)
  | 'n' :: 'u' :: 'l' :: 'l' :: rest => some (.null, rest)
  | 't' :: 'r' :: 'u' :: 'e' :: rest => some (.bool true, rest)
  | 'f' :: 'a' :: 'l' :: 's' :: 'e' :: rest => some (.bool false, rest)
  | cs => (scanNumber cs).map fun (lexeme, rest) => (.number lexeme, rest)

/-- A key with its quotes and the colon behind it. -/
def readKey (cs : List Char) : Option (List Char × List Char) :=
  match skipBlanks cs with
  | '"' :: cs => do
    let (key, cs) ← scanString .plain cs
    match skipBlanks cs with
    | ':' :: cs => some (key, cs)
    | _ => none
  | _ => none

mutual

/-- One value behind blanks. -/
def readValue : Nat → List Char → Option (Json × List Char)
  | 0, _ => none
  | bound + 1, cs =>
    match skipBlanks cs with
    | '"' :: cs => (scanString .plain cs).map fun (raw, rest) => (.string raw, rest)
    | '[' :: cs =>
      match skipBlanks cs with
      | ']' :: cs => some (.array [], cs)
      | cs => (readItems bound cs).map fun (items, rest) => (.array items, rest)
    | '{' :: cs =>
      match skipBlanks cs with
      | '}' :: cs => some (.object [], cs)
      | cs => (readMembers bound cs).map fun (members, rest) => (.object members, rest)
    | cs => readScalar cs

/-- The items of an array that has some, with the closing bracket. -/
def readItems : Nat → List Char → Option (List Json × List Char)
  | 0, _ => none
  | bound + 1, cs => do
    let (item, cs) ← readValue bound cs
    match skipBlanks cs with
    | ']' :: cs => some ([item], cs)
    | ',' :: cs => (readItems bound cs).map fun (items, rest) => (item :: items, rest)
    | _ => none

/-- The members of an object that has some, with the closing brace. -/
def readMembers : Nat → List Char → Option (List (List Char × Json) × List Char)
  | 0, _ => none
  | bound + 1, cs => do
    let (key, cs) ← readKey cs
    let (value, cs) ← readValue bound cs
    match skipBlanks cs with
    | '}' :: cs => some ([(key, value)], cs)
    | ',' :: cs => (readMembers bound cs).map fun (members, rest) => ((key, value) :: members, rest)
    | _ => none

end

def parse (text : List Char) : Option Json :=
  (readValue (2 * text.length + 1) text).bind fun (value, rest) =>
    if skipBlanks rest = [] then some value else none

end InfoFlow.Json

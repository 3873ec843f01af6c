import InfoFlow.Toml.Table

/-! # TOML scalars

The lexical grammar of TOML 1.0: blanks, comments, keys, strings, numbers, truth values and dates. -/

namespace InfoFlow.Toml

/-! ### Scanners

A scanner reads something from the beginning of a text, or fails and reads nothing. -/

/-- Reads a value from the beginning of a text and leaves the rest. -/
abbrev Scanner := StateT (List Char) Option

namespace Scanner

variable {α : Type}

def satisfy (p : Char → Bool) : Scanner Char := do
  match ← get with
  | c :: rest => if p c then set rest; return c else failure
  | [] => failure

def char (c : Char) : Scanner Unit := discard (satisfy (· == c))

def literal (cs : List Char) : Scanner Unit := cs.forM char

def finish : Scanner Unit := do
  if (← get).isEmpty then return else failure

/-- What `p` reads up to `bound` times, as long as it succeeds. -/
def upTo (p : Scanner α) : Nat → Scanner (List α)
  | 0 => return []
  | bound + 1 => do
    match ← optional p with
    | some a => return a :: (← upTo p bound)
    | none => return []

/-- What `p` reads as long as it succeeds; `p` reads at least one character each time. -/
def many (p : Scanner α) : Scanner (List α) := do upTo p (← get).length

def separated (p : Scanner α) (separator : Scanner Unit) : Scanner (List α) := do
  match ← optional p with
  | some first => return first :: (← many do separator; p)
  | none => return []

/-- What `part` reads until `close` succeeds, and what that gives; `part` reads at least one character
each time. -/
def enclosed (close : Scanner (List α)) (part : Scanner (List α)) : Scanner (List α) := do
  parts close part ((← get).length + 1)
where
  parts (close : Scanner (List α)) (part : Scanner (List α)) : Nat → Scanner (List α)
    | 0 => failure
    | bound + 1 => close <|> do
      let first ← part
      return first ++ (← parts close part bound)

end Scanner

open Scanner

/-! ### Blanks and comments -/

def isBlank (c : Char) : Bool := c == ' ' || c == '\t'

/-- Whether a character may stand in comments and strings: control characters other than tabs may not. -/
def isTextChar (c : Char) : Bool := c == '\t' || (' ' ≤ c && c != '\x7f')

def blanks : Scanner Unit := modify (·.dropWhile isBlank)

def newline : Scanner Unit := char '\n' <|> literal ['\r', '\n']

def comment : Scanner Unit := do
  char '#'
  modify (·.dropWhile isTextChar)

/-- What may stand behind a statement: blanks, a comment and the end of the line or of the text. -/
def lineEnd : Scanner Unit := do
  blanks
  let _ ← optional comment
  newline <|> finish

/-- What may stand between the items of an array: blanks, comments and ends of lines. -/
def gap : Scanner Unit := discard (many (discard (satisfy isBlank) <|> newline <|> comment))

/-! ### Digits -/

def digitValue (c : Char) : Nat :=
  if c.isDigit then c.toNat - '0'.toNat else c.toLower.toNat - 'a'.toNat + 10

def numberOf (base : Nat) (digits : List Char) : Nat := digits.foldl (fun n d => base * n + digitValue d) 0

def isHexDigit (c : Char) : Bool := c.isDigit || ('a' ≤ c.toLower && c.toLower ≤ 'f')

/-- Digits, with single underscores between them. -/
def digitRun (isDigit : Char → Bool) : Scanner (List Char) := do
  let first ← satisfy isDigit
  return first :: (← many (satisfy isDigit <|> do char '_'; satisfy isDigit))

def exactly (count : Nat) (p : Char → Bool) : Scanner (List Char) := (List.replicate count ()).mapM fun _ => satisfy p

/-! ### Strings -/

def escaped : Scanner Char := do
  char '\\'
  match ← satisfy fun _ => true with
  | 'b' => return '\x08'
  | 't' => return '\t'
  | 'n' => return '\n'
  | 'f' => return '\x0c'
  | 'r' => return '\r'
  | '"' => return '"'
  | '\\' => return '\\'
  | 'u' => codePoint 4
  | 'U' => codePoint 8
  | _ => failure
where
  codePoint (count : Nat) : Scanner Char := do
    let n := numberOf 16 (← exactly count isHexDigit)
    if n.isValidChar then return Char.ofNat n else failure

/-- A character that stands for itself, other than `except`. -/
def plain (except : Char → Bool) : Scanner (List Char) := return [← satisfy fun c => isTextChar c && !except c]

def basicString : Scanner (List Char) := do
  char '"'
  enclosed (do char '"'; return []) (plain (fun c => c == '"' || c == '\\') <|> return [← escaped])

def literalString : Scanner (List Char) := do
  char '\''
  enclosed (do char '\''; return []) (plain (· == '\''))

/-- Three quotes, behind up to two more that belong to the string. -/
def closing (quote : Char) : Scanner (List Char) := do
  literal [quote, quote, quote]
  let first ← optional (char quote)
  let second ← optional (char quote)
  return (first.toList ++ second.toList).map fun _ => quote

/-- A backslash at the end of a line, which joins the line with the next text. -/
def continuation : Scanner Unit := do
  char '\\'
  blanks
  newline
  discard (many (discard (satisfy isBlank) <|> newline))

/-- A string over several lines, between three of `quote`. A line break right behind the opening quotes
does not belong to it; every other one is a line feed. -/
def multiLine (quote : Char) (part : Scanner (List Char)) : Scanner (List Char) := do
  literal [quote, quote, quote]
  let _ ← optional newline
  enclosed (closing quote) ((do newline; return ['\n']) <|> part)

def multiLineBasicString : Scanner (List Char) :=
  multiLine '"' ((do continuation; return []) <|> (return [← escaped]) <|> plain (· == '\\'))

def multiLineLiteralString : Scanner (List Char) := multiLine '\'' (plain fun _ => false)

def scanString : Scanner String :=
  String.ofList <$> (multiLineBasicString <|> basicString <|> multiLineLiteralString <|> literalString)

/-! ### Keys -/

def isBareKeyChar (c : Char) : Bool := c.isAlphanum || c == '-' || c == '_'

def bareKey : Scanner (List Char) := do
  return (← satisfy isBareKeyChar) :: (← many (satisfy isBareKeyChar))

def simpleKey : Scanner String := String.ofList <$> (bareKey <|> basicString <|> literalString)

/-- How many parts a key has at most, and how deep values are nested at most. -/
def maxNesting : Nat := 79

/-- A key: its first part and the others, with dots between them. -/
def dottedKey : Scanner (String × List String) := do
  let first ← part
  let rest ← many do char '.'; part
  if rest.length < maxNesting then return (first, rest) else failure
where
  /-- One part with blanks around it. -/
  part : Scanner String := do
    blanks
    let key ← simpleKey
    blanks
    return key

/-! ### Numbers -/

def sign : Scanner Bool := (do char '-'; return true) <|> (do char '+'; return false) <|> return false

/-- Decimal digits; a leading zero stands alone. -/
def wholeDigits : Scanner (List Char) := do
  match ← satisfy Char.isDigit with
  | '0' => return ['0']
  | first => return first :: (← many (satisfy Char.isDigit <|> do char '_'; satisfy Char.isDigit))

/-- A number in a base other than ten, behind the letter of the base. -/
def based (letter : Char) (base : Nat) (isDigit : Char → Bool) : Scanner Int := do
  literal ['0', letter]
  return numberOf base (← digitRun isDigit)

def signed : Scanner Int := do
  let negative ← sign
  let n := numberOf 10 (← wholeDigits)
  return if negative then -(n : Int) else n

/-- An integer, which fits into 64 bits. -/
def scanInteger : Scanner Int := do
  let n ← based 'x' 16 isHexDigit <|> based 'o' 8 (fun c => '0' ≤ c && c ≤ '7')
    <|> based 'b' 2 (fun c => c == '0' || c == '1') <|> signed
  if Int64.minValue.toInt ≤ n ∧ n ≤ Int64.maxValue.toInt then return n else failure

/-- Whether `n * 10 ^ exponent` is so large that the nearest double is infinite. -/
def isHuge (n : Nat) (exponent : Int) : Bool :=
  let limit := Nat.pow 2 1024 - Nat.pow 2 970
  let magnitude : Int := (Nat.toDigits 10 n).length + exponent
  if n = 0 ∨ magnitude < 309 then false
  else if 309 < magnitude then true
  else if 0 ≤ exponent then limit ≤ n * Nat.pow 10 exponent.toNat
  else limit * Nat.pow 10 (-exponent).toNat ≤ n

def fraction : Scanner (List Char) := do
  char '.'
  digitRun Char.isDigit

def exponent : Scanner Int := do
  let _ ← satisfy fun c => c == 'e' || c == 'E'
  let negative ← sign
  let n := numberOf 10 (← digitRun Char.isDigit)
  return if negative then -(n : Int) else n

/-- A float. One without a minus sign must not be too large for a double. -/
def scanFloat : Scanner Unit := do
  let negative ← sign
  (literal "inf".toList <|> literal "nan".toList) <|> do
    let whole ← wholeDigits
    let (digits, power) ← (do
        let digits ← fraction
        return (digits, (← optional exponent).getD 0))
      <|> do return ([], ← exponent)
    if !negative && isHuge (numberOf 10 (whole ++ digits)) (power - digits.length) then failure

/-! ### Dates and times -/

def twoDigits (low high : Nat) : Scanner Nat := do
  let n := numberOf 10 (← exactly 2 Char.isDigit)
  if low ≤ n ∧ n ≤ high then return n else failure

def daysIn (year month : Nat) : Nat :=
  if month = 2 then if year % 4 = 0 ∧ (year % 100 ≠ 0 ∨ year % 400 = 0) then 29 else 28
  else if month = 4 ∨ month = 6 ∨ month = 9 ∨ month = 11 then 30
  else 31

def date : Scanner Unit := do
  let year := numberOf 10 (← exactly 4 Char.isDigit)
  char '-'
  let month ← twoDigits 1 12
  char '-'
  discard (twoDigits 1 (daysIn year month))

/-- A time of day, with a leap second and fractions of a second. -/
def time : Scanner Unit := do
  discard (twoDigits 0 23)
  char ':'
  discard (twoDigits 0 59)
  char ':'
  discard (twoDigits 0 60)
  discard (optional do
    char '.'
    discard (satisfy Char.isDigit)
    discard (many (satisfy Char.isDigit)))

def offset : Scanner Unit :=
  discard (satisfy fun c => c == 'Z' || c == 'z') <|> do
    discard (satisfy fun c => c == '+' || c == '-')
    discard (twoDigits 0 23)
    char ':'
    discard (twoDigits 0 59)

/-- A date, a time, or both with or without an offset. -/
def scanDateTime : Scanner Unit :=
  (do
    date
    discard (optional do
      discard (satisfy fun c => c == 'T' || c == 't' || c == ' ')
      time
      discard (optional offset)))
  <|> time

/-! ### Scalars -/

def scanScalar : Scanner Toml :=
  (.string <$> scanString)
  <|> (do scanDateTime; return .dateTime)
  <|> (do scanFloat; return .float)
  <|> (.integer <$> scanInteger)
  <|> (do literal "true".toList; return .boolean true)
  <|> (do literal "false".toList; return .boolean false)

end InfoFlow.Toml

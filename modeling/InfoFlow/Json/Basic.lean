/-! # JSON values

A JSON value keeps its numbers and strings as they are written. What a lexeme means is asked only
where it is used, so a value that a reader ignores need not mean anything. -/

namespace InfoFlow

/-- A JSON value; a string and a key is the text between its quotes, with its escapes unresolved. -/
inductive Json where
  | null
  | bool (value : Bool)
  | number (lexeme : List Char)
  | string (raw : List Char)
  | array (items : List Json)
  | object (members : List (List Char × Json))
deriving Inhabited

namespace Json

def decimal? (digits : List Char) : Option Nat :=
  if digits ≠ [] ∧ digits.all Char.isDigit then
    some (digits.foldl (fun n d => 10 * n + (d.toNat - '0'.toNat)) 0)
  else none

/-- The natural number that a value writes without sign, fraction and exponent. -/
def natural? : Json → Option Nat
  | .number lexeme => decimal? lexeme
  | _ => none

/-- The integer that a value writes without fraction and exponent; zero has no sign. -/
def integer? : Json → Option Int
  | .number ('-' :: digits) => (decimal? digits).bind fun n => if n = 0 then none else some (-(n : Int))
  | .number lexeme => (decimal? lexeme).map Int.ofNat
  | _ => none

def ofNat (n : Nat) : Json := .number (Nat.toDigits 10 n)

def ofInt : Int → Json
  | .ofNat n => ofNat n
  | .negSucc n => .number ('-' :: Nat.toDigits 10 (n + 1))

/-! ### Writing JSON

The compact form: no blanks, members in their order. -/

def separated (separator : Char) : List (List Char) → List Char
  | [] => []
  | [part] => part
  | part :: rest => part ++ separator :: separated separator rest

mutual

/-- The compact text of a value. -/
def render : Json → List Char
  | .null => ['n', 'u', 'l', 'l']
  | .bool true => ['t', 'r', 'u', 'e']
  | .bool false => ['f', 'a', 'l', 's', 'e']
  | .number lexeme => lexeme
  | .string raw => '"' :: raw ++ ['"']
  | .array items => '[' :: separated ',' (renderItems items) ++ [']']
  | .object members => '{' :: separated ',' (renderMembers members) ++ ['}']

def renderItems : List Json → List (List Char)
  | [] => []
  | item :: rest => render item :: renderItems rest

def renderMembers : List (List Char × Json) → List (List Char)
  | [] => []
  | (key, value) :: rest => ('"' :: key ++ '"' :: ':' :: render value) :: renderMembers rest

end

def text (j : Json) : String := String.ofList j.render

end Json
end InfoFlow

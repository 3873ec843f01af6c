import InfoFlow.Json.Record
import InfoFlow.Json.Reader

/-! # Values that mean something throughout

A value that is set aside before it is known what becomes of its parts has to mean something in all of
them: every string and every key stands for a text, and every number is finite as a double. Besides,
its nesting is limited. -/

namespace InfoFlow.Json

/-- The nearest number with at most 53 significant bits; a tie goes to the even one. -/
def roundDouble (n : Nat) : Nat :=
  let excess := n.log2 + 1 - 53
  if excess = 0 then n
  else
    let kept := n >>> excess
    let lost := n % Nat.pow 2 excess
    let half := Nat.pow 2 (excess - 1)
    if half < lost ∨ (lost = half ∧ kept % 2 = 1) then (kept + 1) <<< excess else kept <<< excess

/-- Appends a digit to a number as long as the result fits into 64 bits. -/
def appendDigit? (n : Nat) (digit : Char) : Option Nat :=
  let next := 10 * n + (digit.toNat - '0'.toNat)
  if next < UInt64.size then some next else none

/-- Appends the leading digits that fit, and tells how many digits are left. -/
def appendDigits (n : Nat) : List Char → Nat × Nat
  | [] => (n, 0)
  | d :: ds =>
    match appendDigit? n d with
    | some next => appendDigits next ds
    | none => (n, ds.length + 1)

/-- Whether `significand * 10 ^ exponent`, with both factors rounded to doubles, is below `2 ^ 1024`. -/
def isFiniteProduct (significand : Nat) (exponent : Int) : Bool :=
  if significand = 0 ∨ exponent < 0 then true
  else if 308 < exponent then false
  else roundDouble (roundDouble significand * roundDouble (Nat.pow 10 exponent.toNat)) < Nat.pow 2 1024

def exponentValue : List Char → Int
  | _ :: '-' :: digits => -((decimal? digits).getD 0 : Int)
  | _ :: '+' :: digits => ((decimal? digits).getD 0 : Int)
  | _ :: digits => ((decimal? digits).getD 0 : Int)
  | [] => 0

/-- Whether an unsigned number is finite as a double. Of its digits only the leading ones that fit into
64 bits are counted exactly. -/
def isFiniteUnsigned (lexeme : List Char) : Bool :=
  match scanWhole lexeme with
  | none => false
  | some (whole, rest) =>
    let (significand, dropped) := appendDigits 0 whole
    let fraction := (scanFraction rest).getD ([], rest)
    let digits := fraction.1.drop 1
    let (significand, left) := appendDigits significand digits
    let taken := digits.length - left
    isFiniteProduct significand ((dropped : Int) - taken + exponentValue fraction.2)

def isFiniteNumber : List Char → Bool
  | '-' :: lexeme => isFiniteUnsigned lexeme
  | lexeme => isFiniteUnsigned lexeme

mutual

/-- Whether every string and key of a value stands for a text and every number is finite. -/
def isMeaningful : Json → Bool
  | .null => true
  | .bool _ => true
  | .number lexeme => isFiniteNumber lexeme
  | .string raw => (unescape raw).isSome
  | .array items => areMeaningful items
  | .object members => haveMeaning members

def areMeaningful : List Json → Bool
  | [] => true
  | item :: rest => isMeaningful item && areMeaningful rest

def haveMeaning : List (List Char × Json) → Bool
  | [] => true
  | (key, value) :: rest => (unescape key).isSome && isMeaningful value && haveMeaning rest

end

mutual

def depth : Json → Nat
  | .null => 0
  | .bool _ => 0
  | .number _ => 0
  | .string _ => 0
  | .array items => depthItems items + 1
  | .object members => depthMembers members + 1

def depthItems : List Json → Nat
  | [] => 0
  | item :: rest => max (depth item) (depthItems rest)

def depthMembers : List (List Char × Json) → Nat
  | [] => 0
  | (_, value) :: rest => max (depth value) (depthMembers rest)

end

/-- How deep a value may be nested, counted from the outermost value of the text. -/
def maxDepth : Nat := 127

/-- Whether a value inside `enclosing` others can be set aside. -/
def isWhole (enclosing : Nat) (j : Json) : Bool := j.depth + enclosing ≤ maxDepth && j.isMeaningful

end InfoFlow.Json

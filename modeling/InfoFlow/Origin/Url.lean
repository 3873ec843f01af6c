import InfoFlow.Text

/-! # URLs of origins

Scripts and documents come from URLs. An origin is identified by the host of its URL in lower case, or
by the whole text if the URL names no host in the usual way. -/

namespace InfoFlow.Origin

open Text

inductive Scheme where
  | file
  | http
  | about
  /-- There is nothing but white space. -/
  | empty
  /-- The word that stands for no origin. -/
  | null
  | unknown
deriving DecidableEq

def Scheme.text : Scheme → String
  | .file => "file"
  | .http => "http"
  | .about => "about"
  | .empty => ""
  | .null => "NULL"
  | .unknown => "!"

def Scheme.isNullLike : Scheme → Bool
  | .empty | .null => true
  | _ => false

/-- The scheme of a URL in lower case and without surrounding white space. -/
def schemeOf (url : List Char) : Scheme :=
  if url = [] then .empty
  else if url = "null".toList then .null
  else if "file:".toList.isPrefixOf url then .file
  else if "http:".toList.isPrefixOf url || "https:".toList.isPrefixOf url then .http
  else if "about:".toList.isPrefixOf url then .about
  else .unknown

def scheme (url : String) : Scheme := schemeOf (lower (trim url.toList))

def endsHost (c : Char) : Bool := c == '/' || c == '?' || c == '#'

def hostMarkers : List (List Char) := ["http://".toList, "https://".toList, "//".toList]

def afterMarker? (text marker : List Char) : Option (List Char) :=
  if marker.isPrefixOf text then some (text.drop marker.length) else none

/-- The host of a URL in lower case and without surrounding white space, or else the whole text. -/
def hostOf (url : List Char) : List Char :=
  match hostMarkers.findSome? (afterMarker? url) with
  | some rest => rest.takeWhile (!endsHost ·)
  | none => url

def domain (url : String) : String := String.ofList (hostOf (lower (trim url.toList)))

/-- Whether a URL names no origin: it is empty, the null word, or has an empty host. -/
def isNull (url : String) : Bool := (scheme url).isNullLike || domain url == ""

/-! ### Origin hints

Policy code names the origin whose label it assigns by its URL, or by a keyword for the running
script's own origin. -/

inductive Hint where
  | currentScript
  | origin (url : String)
deriving DecidableEq

namespace Hint

/-- The keyword for the running script. -/
def keyword : String := "self"

/-- A text is the keyword if it is so up to surrounding white space; a URL is taken as it stands. -/
def ofText (text : String) : Hint :=
  if Text.trim text.toList = keyword.toList then .currentScript else .origin text

def text : Hint → String
  | .currentScript => keyword
  | .origin url => url

end Hint

/-! ### Trust lists

An attribute of an event handler lists the origins that the handler trusts, separated by commas and
ASCII white space. -/

def isSeparator (c : Char) : Bool :=
  c == ',' || c == ' ' || c == '\t' || c == '\n' || c == '\x0c' || c == '\r'

/-- The maximal runs of characters that are no separators, in their order. -/
def runs : List Char → List (List Char)
  | [] => []
  | c :: cs =>
    if isSeparator c then runs cs
    else
      match cs.head?.filter (!isSeparator ·), runs cs with
      | some _, run :: rest => (c :: run) :: rest
      | _, rest => [c] :: rest

def trustList (value : String) : List String := (runs value.toList).map String.ofList

end InfoFlow.Origin

import ZoneGraph.Text.Blank
import ZoneGraph.Text.Numeral

/-! Domain names as lists of labels. A name is read from its text character by
character: a dot ends a label and a backslash starts an escape, so a label may hold a
dot that the text shows only as an escape. Zones and hosts are compared by labels. -/
namespace ZoneGraph

/-- Why a text is not the name of a zone. -/
inductive NameFault where
  | empty
  | trailingDot
  | unrecognizedChar (c : Char)
  | illegalChar (c : Char)
  | longLabel (bytes : Nat)
  | malformedLabel (label : List Char)
  | longName (bytes : Nat)
  | tooFewLabels
  deriving DecidableEq

def NameFault.message : NameFault → String
  | .empty => "empty name"
  | .trailingDot => "zone names are written without a trailing dot"
  | .unrecognizedChar c => "unrecognized char: " ++ String.singleton c
  | .illegalChar c => "illegal char: " ++ String.singleton c
  | .longLabel bytes => "label bytes exceed 63: " ++ toString bytes
  | .malformedLabel label => "Malformed label: " ++ String.ofList label
  | .longName bytes => "name label data exceed 255: " ++ toString bytes
  | .tooFewLabels => "a zone needs at least two labels"

/-- A domain name, from its leftmost label to its rightmost. -/
structure DomainName where
  labels : List (List Char)
  deriving DecidableEq

namespace DomainName

/-! ### Labels -/

/-- The bytes of a label in UTF-8. -/
def byteCount : List Char → Nat
  | [] => 0
  | c :: rest => c.utf8Size + byteCount rest

def startsLabel (c : Char) : Bool := c.isAlphanum || c = '_' || c = '.' || c = '*'

def continuesLabel (c : Char) : Bool := c.isAlphanum || c = '_' || c = '.' || c = '-'

/-- Whether a label is the wildcard or is made of the characters allowed at their places. -/
def isLabel : List Char → Bool
  | [] => false
  | c :: rest => (c = '*' && rest.isEmpty) || (startsLabel c && rest.all continuesLabel)

/-- The bytes of labels on the wire, each with its length before it and the root at the end. -/
def wireBytes : List (List Char) → Nat
  | [] => 1
  | label :: rest => byteCount label + 1 + wireBytes rest

/-- Adds a label on the right if it is allowed there. -/
def addLabel (labels : List (List Char)) (label : List Char) : Except NameFault (List (List Char)) :=
  if 63 < byteCount label then .error (.longLabel (byteCount label))
  else if !isLabel label then .error (.malformedLabel label)
  else if 255 < wireBytes labels + byteCount label + 1 then
    .error (.longName (wireBytes labels + byteCount label + 1))
  else .ok (labels ++ [label])

/-! ### Reading -/

/-- Where the reader stands: within a label, after a backslash, or within a number of
three digits in base eight. -/
inductive Place where
  | label
  | escape
  | secondDigit (high : Nat)
  | thirdDigit (high middle : Nat)

def octal? (c : Char) : Option Nat :=
  if '0' ≤ c ∧ c ≤ '7' then some (c.toNat - '0'.toNat) else none

/-- Reads a digit of an escape, telling other numerals from other characters. -/
def octalDigit (c : Char) : Except NameFault Nat :=
  if Text.isNumeral c then
    match octal? c with
    | some digit => .ok digit
    | none => .error (.illegalChar c)
  else .error (.unrecognizedChar c)

/-- Reads the rest of a text, given the whole labels and the start of the current one. -/
def readFrom (labels : List (List Char)) (label : List Char) :
    Place → List Char → Except NameFault (List (List Char))
  | _, [] => if label.isEmpty then .ok labels else addLabel labels label
  | .label, c :: rest =>
    if c = '.' then
      match addLabel labels label with
      | .ok labels => readFrom labels [] .label rest
      | .error fault => .error fault
    else if c = '\\' then readFrom labels label .escape rest
    else if Text.isControl c || Text.isBlank c then .error (.unrecognizedChar c)
    else readFrom labels (label ++ [c]) .label rest
  | .escape, c :: rest =>
    if Text.isNumeral c then
      match octalDigit c with
      | .ok digit => readFrom labels label (.secondDigit digit) rest
      | .error fault => .error fault
    else readFrom labels (label ++ [c]) .label rest
  | .secondDigit high, c :: rest =>
    match octalDigit c with
    | .ok digit => readFrom labels label (.thirdDigit high digit) rest
    | .error fault => .error fault
  | .thirdDigit high middle, c :: rest =>
    match octalDigit c with
    | .ok digit => readFrom labels (label ++ [Char.ofNat (64 * high + 8 * middle + digit)]) .label rest
    | .error fault => .error fault

/-- Reads a name. A dot alone is the root, which has no label. -/
def parse (text : List Char) : Except NameFault DomainName :=
  if text = ['.'] then .ok ⟨[]⟩ else (readFrom [] [] .label text).map DomainName.mk

/-- The number of labels, not counting a wildcard in front. -/
def numLabels (name : DomainName) : Nat :=
  match name.labels with
  | ['*'] :: rest => rest.length
  | labels => labels.length

/-- Reads the name of a zone, which has two labels or more and no dot at its end. -/
def parseZone (text : String) : Except NameFault DomainName :=
  if text.toList = [] then .error .empty
  else if text.toList.getLast? = some '.' then .error .trailingDot
  else
    match parse text.toList with
    | .error fault => .error fault
    | .ok name => if name.numLabels < 2 then .error .tooFewLabels else .ok name

/-! ### Names under a zone -/

def lowerLabels (name : DomainName) : List (List Char) := name.labels.map (List.map Char.toLower)

/-- Whether the other name ends in this one's labels, up to the case of ASCII letters. -/
def isZoneOf (zone name : DomainName) : Bool := zone.lowerLabels.isSuffixOf name.lowerLabels

def trimDots (text : List Char) : List Char := (text.reverse.dropWhile (· = '.')).reverse

def joinDots (parts : List (List Char)) : List Char := List.intercalate ['.'] parts

/-- The part of a host name left of a zone, if the host lies strictly below it: as many
pieces of the host's text as it has labels more than the zone. -/
def relativeName? (zone : DomainName) (host : String) : Option String :=
  let text := trimDots host.toList
  match parse text with
  | .error _ => none
  | .ok name =>
    if zone.isZoneOf name && zone.numLabels < name.numLabels then
      some (String.ofList (joinDots ((text.splitOn '.').take (name.numLabels - zone.numLabels))))
    else none

end DomainName

end ZoneGraph

import ZoneGraph.Text.Decimal

/-! Texts as YAML scalars. A text is written plain unless it would be read as something
else or the plain form cannot hold it; then it is quoted. A text with the end of a line
is written as a literal block where that is possible. -/
namespace ZoneGraph.Yaml

/-! ### Texts that read as something else -/

/-- The words that read as nothing or as a truth value. -/
def reservedWords : List String :=
  ["null", "Null", "NULL", "~", "true", "True", "TRUE", "false", "False", "FALSE"]

/-- The words that read as floats, without a sign. -/
def infinityWords : List String := [".inf", ".Inf", ".INF"]

def nanWords : List String := [".nan", ".NaN", ".NAN"]

/-- The magnitude that some digits of a base write, if they are digits of it. -/
def magnitude? (base : Nat) (digits : List Char) : Option Nat :=
  if digits.isEmpty then none
  else if digits.all fun c => (Text.hexValue? c).any (· < base) then some (Text.valueIn base digits)
  else none

def isBelow (bound base : Nat) (digits : List Char) : Bool :=
  (magnitude? base digits).any (· < bound)

/-- Whether a text is a zero with more digits after it, with or without a sign. -/
def isZeroPadded (text : List Char) : Bool :=
  let digits := match text with
    | '-' :: rest => rest
    | '+' :: rest => rest
    | rest => rest
  match digits with
  | '0' :: c :: rest => (c :: rest).all Char.isDigit
  | _ => false

/-- Whether a text without its sign is a whole number of 128 bits. -/
def isMagnitude (bound : Nat) : List Char → Bool
  | '0' :: 'x' :: digits => isBelow bound 16 digits
  | '0' :: 'o' :: digits => isBelow bound 8 digits
  | '0' :: 'b' :: digits => isBelow bound 2 digits
  | digits => !isZeroPadded digits && isBelow bound 10 digits

/-- Whether a text reads as a whole number of 128 bits. -/
def isWholeNumber : List Char → Bool
  | '-' :: rest => isMagnitude (Nat.pow 2 127 + 1) rest
  | '+' :: rest => isMagnitude (Nat.pow 2 128) rest
  | rest => isMagnitude (Nat.pow 2 128) rest

/-- The exponent of a float, zero if there is none. -/
def exponent? : List Char → Option Int
  | [] => some 0
  | c :: rest =>
    if c = 'e' ∨ c = 'E' then
      match rest with
      | '-' :: digits => (magnitude? 10 digits).map fun n => -(n : Int)
      | '+' :: digits => (magnitude? 10 digits).map fun n => (n : Int)
      | digits => (magnitude? 10 digits).map fun n => (n : Int)
    else none

/-- Whether digits with a point or an exponent write a float that is not infinite. -/
def isDecimal (text : List Char) : Bool :=
  let (whole, rest) := text.span Char.isDigit
  let (fraction, rest) := match rest with
    | '.' :: rest => rest.span Char.isDigit
    | rest => ([], rest)
  if whole.isEmpty && fraction.isEmpty then false
  else
    match exponent? rest with
    | some exponent => Text.isFinite (Text.valueIn 10 (whole ++ fraction)) (exponent - fraction.length)
    | none => false

def isFloat (text : List Char) : Bool :=
  match text with
  | '-' :: rest => String.ofList rest ∈ infinityWords || isDecimal rest
  | '+' :: rest => String.ofList rest ∈ infinityWords || isDecimal rest
  | rest => String.ofList rest ∈ infinityWords || String.ofList rest ∈ nanWords || isDecimal rest

def readsOtherwise (text : List Char) : Bool :=
  text.isEmpty || String.ofList text ∈ reservedWords || isZeroPadded text || isWholeNumber text ||
    isFloat text

/-! ### What each style can hold -/

def isBreak (c : Char) : Bool :=
  c = '\n' || c = '\r' || c = '\x85' || c = '\u2028' || c = '\u2029'

/-- Whether a character, or the end of the text, separates an indicator from the rest. -/
def isGap (c : Char) : Bool := c = ' ' || c = '\t' || c = '\x00' || isBreak c

def isPrintable (c : Char) : Bool :=
  c = '\n' || (' ' ≤ c && c ≤ '~') ||
    ('\u00a0' ≤ c && c ≠ '\ufeff' && c ≠ '\ufffe' && c ≠ '\uffff')

def startsMarked : List Char → Bool
  | [] => false
  | c :: rest =>
    ",[]\x7b\x7d#&*!|>\x27\"%@`".toList.contains c ||
      ((c = '?' || c = ':' || c = '-') && isGap (rest.headD '\x00')) ||
      ['-', '-', '-'].isPrefixOf (c :: rest) || ['.', '.', '.'].isPrefixOf (c :: rest)

/-- Whether a colon with a gap after it, or a hash with a gap before it, stands after the
first character. -/
def holdsMark (before : Char) : List Char → Bool
  | [] => false
  | c :: rest =>
    (c = ':' && isGap (rest.headD '\x00')) || (c = '#' && isGap before) || holdsMark c rest

/-- Whether a plain scalar would be read as more than itself. -/
def isMarked (text : List Char) : Bool :=
  startsMarked text || match text with
    | [] => false
    | c :: rest => holdsMark c rest

/-- Whether a character with the first property stands right before one with the
second. -/
def holdsPair (first second : Char → Bool) : List Char → Bool
  | a :: b :: rest => (first a && second b) || holdsPair first second (b :: rest)
  | _ => false

def isSpace (c : Char) : Bool := c = ' '

def fitsLiteral (text : List Char) : Bool :=
  text.all isPrintable && !holdsPair isSpace isBreak text && !(text.getLast?.any isSpace)

def fitsSingle (text : List Char) : Bool :=
  text.all isPrintable && !holdsPair isSpace isBreak text && !holdsPair isBreak isSpace text

def fitsPlain (text : List Char) : Bool :=
  text.all isPrintable && !text.any isBreak && !(text.head?.any isSpace) && !(text.getLast?.any isSpace) &&
    !isMarked text

inductive Style where
  | plain
  | single
  | double
  | literal
  deriving DecidableEq

/-- Single quotes where they can hold a text, or else double quotes. -/
def quotedStyle (text : List Char) : Style := if fitsSingle text then .single else .double

def styleOf (text : List Char) : Style :=
  if '\n' ∈ text then if fitsLiteral text then .literal else .double
  else if readsOtherwise text then quotedStyle text
  else if fitsPlain text then .plain
  else quotedStyle text

/-! ### Lines -/

structure Line where
  text : List Char
  ending : Char := '\n'

/-- A line further to the right, unless it is empty. -/
def Line.indent (line : Line) : Line :=
  if line.text.isEmpty then line else { line with text := ' ' :: ' ' :: line.text }

/-- The lines of a text; what follows the last end of a line is apart. -/
def splitLines : List Char → List Line × List Char
  | [] => ([], [])
  | c :: rest =>
    let (lines, last) := splitLines rest
    if isBreak c then (⟨[], c⟩ :: lines, last)
    else
      match lines with
      | [] => ([], c :: last)
      | line :: more => ({ line with text := c :: line.text } :: more, last)

def shortEscape? (c : Char) : Option Char :=
  [('\x00', '0'), ('\x07', 'a'), ('\x08', 'b'), ('\t', 't'), ('\n', 'n'), ('\x0b', 'v'), ('\x0c', 'f'),
    ('\r', 'r'), ('\x1b', 'e'), ('"', '"'), ('\\', '\\'), ('\x85', 'N'), ('\u00a0', '_'),
    ('\u2028', 'L'), ('\u2029', 'P')].lookup c

def hexDigits (width n : Nat) : List Char :=
  let digits := (Nat.toDigits 16 n).map Char.toUpper
  List.replicate (width - digits.length) '0' ++ digits

/-- The written form of one character between double quotes. -/
def escapedChar (c : Char) : List Char :=
  if isPrintable c && !isBreak c && c ≠ '"' && c ≠ '\\' then [c]
  else
    match shortEscape? c with
    | some letter => ['\\', letter]
    | none =>
      if c.toNat ≤ 0xff then '\\' :: 'x' :: hexDigits 2 c.toNat
      else if c.toNat ≤ 0xffff then '\\' :: 'u' :: hexDigits 4 c.toNat
      else '\\' :: 'U' :: hexDigits 8 c.toNat

/-- How a literal block keeps the end of its last line: not at all, as one, or as all
there are. -/
def chomping (text : List Char) : List Char :=
  match text.reverse with
  | last :: before :: _ => if !isBreak last then ['-'] else if isBreak before then ['+'] else []
  | [last] => if isBreak last then ['+'] else ['-']
  | [] => ['-']

/-- The number of blanks that a block is indented by, where its first line does not show
it. -/
def indentHint : List Char → List Char
  | c :: _ => if isSpace c || isBreak c then ['2'] else []
  | [] => []

def literalLines (text : List Char) : List Line :=
  let (lines, last) := splitLines text
  if last.isEmpty then lines else lines ++ [{ text := last }]

def singleLines (text : List Char) : List Line :=
  let doubled := text.flatMap fun c => if c = '\x27' then ['\x27', '\x27'] else [c]
  let (lines, last) := splitLines ('\x27' :: doubled)
  lines ++ [{ text := last ++ ['\x27'] }]

/-- The lines of a scalar. The first one follows what stands before it. -/
def scalarLines (text : List Char) : List Line :=
  match styleOf text with
  | .plain => [{ text }]
  | .single => singleLines text
  | .double => [{ text := '"' :: text.flatMap escapedChar ++ ['"'] }]
  | .literal => { text := '|' :: indentHint text ++ chomping text } :: literalLines text

end ZoneGraph.Yaml

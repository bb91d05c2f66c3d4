import ZoneGraph.Data
import ZoneGraph.Text.Decimal

/-! The strings, numbers and dates of TOML. Every reader takes characters and gives what
it read together with the rest of the text. -/
namespace ZoneGraph.Toml

/-! ### Characters -/

def isBlank (c : Char) : Bool := c = ' ' || c = '\t'

/-- Whether a character may stand in a comment or, quotes apart, in a string. -/
def isPlain (c : Char) : Bool := c = '\t' || (' ' ≤ c && c ≠ '\x7f')

def skipBlanks (text : List Char) : List Char := text.dropWhile isBlank

def newline? : List Char → Option (List Char)
  | '\n' :: rest => some rest
  | '\r' :: '\n' :: rest => some rest
  | _ => none

/-! ### Strings -/

def shortEscape? : Char → Option Char
  | '"' => some '"'
  | '\\' => some '\\'
  | 'b' => some '\x08'
  | 'f' => some '\x0c'
  | 'n' => some '\n'
  | 'r' => some '\r'
  | 't' => some '\t'
  | _ => none

/-- The character of a number in base sixteen, which must not be a surrogate. -/
def scalar? (digits : List Char) : Option Char :=
  if digits.all fun c => (Text.hexValue? c).isSome then
    let n := Text.valueIn 16 digits
    if n.isValidChar then some (Char.ofNat n) else none
  else none

/-- A string on one line after its opening quote. -/
def readBasic (read : List Char) : List Char → Option (String × List Char)
  | '"' :: rest => some (String.ofList read.reverse, rest)
  | '\\' :: 'u' :: a :: b :: c :: d :: rest =>
    match scalar? [a, b, c, d] with
    | some char => readBasic (char :: read) rest
    | none => none
  | '\\' :: 'U' :: a :: b :: c :: d :: e :: f :: g :: h :: rest =>
    match scalar? [a, b, c, d, e, f, g, h] with
    | some char => readBasic (char :: read) rest
    | none => none
  | '\\' :: c :: rest =>
    match shortEscape? c with
    | some char => readBasic (char :: read) rest
    | none => none
  | c :: rest => if isPlain c then readBasic (c :: read) rest else none
  | [] => none

/-- A literal string on one line after its opening quote. -/
def readLiteral (text : List Char) : Option (String × List Char) :=
  match text.span fun c => isPlain c && c ≠ '\x27' with
  | (read, '\x27' :: rest) => some (String.ofList read, rest)
  | _ => none

/-- Whether a backslash at the end of a line folds the text: not at all, before the end
of the line, or after it. -/
inductive Folding where
  | off
  | before
  | after
  deriving DecidableEq

/-- A string on several lines after its opening quotes. A run of three to five quotes
ends it, the first ones beyond three being part of it. -/
def readMultiBasic (folding : Folding) (read : List Char) : List Char → Option (String × List Char)
  | [] => none
  | c :: rest =>
    if folding ≠ .off ∧ isBlank c then readMultiBasic folding read rest
    else if folding ≠ .off ∧ c = '\n' then readMultiBasic .after read rest
    else if c = '\r' then
      match rest with
      | '\n' :: rest =>
        if folding = .off then readMultiBasic .off ('\n' :: read) rest
        else readMultiBasic .after read rest
      | _ => none
    else if folding = .before then none
    else if c = '\\' then
      match rest with
      | 'u' :: a :: b :: c :: d :: rest =>
        match scalar? [a, b, c, d] with
        | some char => readMultiBasic .off (char :: read) rest
        | none => none
      | 'U' :: a :: b :: c :: d :: e :: f :: g :: h :: rest =>
        match scalar? [a, b, c, d, e, f, g, h] with
        | some char => readMultiBasic .off (char :: read) rest
        | none => none
      | c :: rest =>
        if isBlank c then readMultiBasic .before read rest
        else if c = '\n' then readMultiBasic .after read rest
        else if c = '\r' then
          match rest with
          | '\n' :: rest => readMultiBasic .after read rest
          | _ => none
        else
          match shortEscape? c with
          | some char => readMultiBasic .off (char :: read) rest
          | none => none
      | [] => none
    else if c = '"' then
      match rest with
      | '"' :: '"' :: '"' :: '"' :: '"' :: _ => none
      | '"' :: '"' :: '"' :: '"' :: rest => some (String.ofList ('"' :: '"' :: read).reverse, rest)
      | '"' :: '"' :: '"' :: rest => some (String.ofList ('"' :: read).reverse, rest)
      | '"' :: '"' :: rest => some (String.ofList read.reverse, rest)
      | rest => readMultiBasic .off ('"' :: read) rest
    else if isPlain c || c = '\n' then readMultiBasic .off (c :: read) rest
    else none

/-- A literal string on several lines after its opening quotes. It ends as a string with
escapes does. -/
def readMultiLiteral (read : List Char) : List Char → Option (String × List Char)
  | '\x27' :: '\x27' :: '\x27' :: '\x27' :: '\x27' :: '\x27' :: _ => none
  | '\x27' :: '\x27' :: '\x27' :: '\x27' :: '\x27' :: rest =>
    some (String.ofList ('\x27' :: '\x27' :: read).reverse, rest)
  | '\x27' :: '\x27' :: '\x27' :: '\x27' :: rest => some (String.ofList ('\x27' :: read).reverse, rest)
  | '\x27' :: '\x27' :: '\x27' :: rest => some (String.ofList read.reverse, rest)
  | '\r' :: '\n' :: rest => readMultiLiteral ('\n' :: read) rest
  | c :: rest => if isPlain c || c = '\n' then readMultiLiteral (c :: read) rest else none
  | [] => none

/-- A text without the end of a line in front. -/
def skipNewline (text : List Char) : List Char := (newline? text).getD text

def readString : List Char → Option (String × List Char)
  | '"' :: '"' :: '"' :: rest => readMultiBasic .off [] (skipNewline rest)
  | '"' :: rest => readBasic [] rest
  | '\x27' :: '\x27' :: '\x27' :: rest => readMultiLiteral [] (skipNewline rest)
  | '\x27' :: rest => readLiteral rest
  | _ => none

/-! ### Keys -/

/-- Whether a character may stand in a key without quotes. -/
def isBare (c : Char) : Bool := c.isAlphanum || c = '_' || c = '-'

def readPart : List Char → Option (String × List Char)
  | '"' :: rest => readBasic [] rest
  | '\x27' :: rest => readLiteral rest
  | text =>
    match text.span isBare with
    | ([], _) => none
    | (part, rest) => some (String.ofList part, rest)

def readParts : Nat → List Char → Option (List String × List Char)
  | 0, _ => none
  | fuel + 1, text => do
    let (part, rest) ← readPart (skipBlanks text)
    match skipBlanks rest with
    | '.' :: rest =>
      let (parts, rest) ← readParts fuel rest
      pure (part :: parts, rest)
    | rest => pure ([part], rest)

/-- The number that the parts of a key and the levels of a value must stay below. -/
def levelLimit : Nat := 80

def readKey (text : List Char) : Option (List String × List Char) := readParts (levelLimit - 1) text

/-! ### Numbers -/

/-- Digits after the first one; single underscores may stand between them. -/
def readMoreDigits (isDigit : Char → Bool) (read : List Char) :
    List Char → Option (List Char × List Char)
  | '_' :: c :: rest => if isDigit c then readMoreDigits isDigit (c :: read) rest else none
  | ['_'] => none
  | c :: rest =>
    if isDigit c then readMoreDigits isDigit (c :: read) rest else some (read.reverse, c :: rest)
  | [] => some (read.reverse, [])

/-- One digit or more, with single underscores between them. -/
def readDigits (isDigit : Char → Bool) : List Char → Option (List Char × List Char)
  | c :: rest => if isDigit c then readMoreDigits isDigit [c] rest else none
  | [] => none

/-- A whole number of 64 bits, the last bit being the sign. -/
def intOf? (negative : Bool) (magnitude : Nat) : Option Data :=
  if negative then if magnitude ≤ Nat.pow 2 63 then some (.int (-(magnitude : Int))) else none
  else if magnitude < Nat.pow 2 63 then some (.int magnitude) else none

def isDigitIn (base : Nat) (c : Char) : Bool := (Text.hexValue? c).any (· < base)

/-- A whole number in a base of its own, after the letter that names it. -/
def readInBase (base : Nat) (text : List Char) : Option (Data × List Char) := do
  let (digits, rest) ← readDigits (isDigitIn base) text
  let value ← intOf? false (Text.valueIn base digits)
  pure (value, rest)

def readExponent (text : List Char) : Option (Int × List Char) :=
  match text with
  | '-' :: rest => (readDigits Char.isDigit rest).map fun read => (-(Text.valueIn 10 read.1 : Int), read.2)
  | '+' :: rest => (readDigits Char.isDigit rest).map fun read => (Text.valueIn 10 read.1, read.2)
  | rest => (readDigits Char.isDigit rest).map fun read => (Text.valueIn 10 read.1, read.2)

def readOptionalExponent : List Char → Option (Int × List Char)
  | c :: rest => if c = 'e' ∨ c = 'E' then readExponent rest else some (0, c :: rest)
  | [] => some (0, [])

/-- A float by its digits. One that is too large is refused, unless it is negative. -/
def realOf? (negative : Bool) (digits fraction : List Char) (exponent : Int) : Option Data :=
  if negative || Text.isFinite (Text.valueIn 10 (digits ++ fraction)) (exponent - fraction.length) then
    some (.real (String.ofList (digits ++ '.' :: fraction)))
  else none

/-- The digits in front of a number; a zero stands alone. -/
def readInteger : List Char → Option (List Char × List Char)
  | '0' :: rest => some (['0'], rest)
  | text => readDigits Char.isDigit text

/-- Infinity, or what is no number. -/
def readSpecial (text : List Char) : Option (Data × List Char) :=
  match "inf".toList.isPrefixOf? text with
  | some rest => some (.real "inf", rest)
  | none => ("nan".toList.isPrefixOf? text).map (.real "nan", ·)

/-- A number in base ten after its sign. -/
def readDecimal (negative : Bool) (text : List Char) : Option (Data × List Char) :=
  match readInteger text with
  | none => readSpecial text
  | some (digits, '.' :: rest) => do
    let (fraction, rest) ← readDigits Char.isDigit rest
    let (exponent, rest) ← readOptionalExponent rest
    let value ← realOf? negative digits fraction exponent
    pure (value, rest)
  | some (digits, c :: rest) =>
    if c = 'e' ∨ c = 'E' then do
      let (exponent, rest) ← readExponent rest
      let value ← realOf? negative digits [] exponent
      pure (value, rest)
    else (intOf? negative (Text.valueIn 10 digits)).map (·, c :: rest)
  | some (digits, []) => (intOf? negative (Text.valueIn 10 digits)).map (·, [])

/-! ### Dates -/

def readTwo (low high : Nat) : List Char → Option (Nat × List Char)
  | a :: b :: rest =>
    if a.isDigit && b.isDigit then
      let n := Text.valueIn 10 [a, b]
      if low ≤ n ∧ n ≤ high then some (n, rest) else none
    else none
  | _ => none

/-- The text after a character that must stand in front. -/
def expectChar (c : Char) : List Char → Option (List Char)
  | d :: rest => if d = c then some rest else none
  | [] => none

def daysIn (year month : Nat) : Nat :=
  if month = 2 then if year % 4 = 0 ∧ (year % 100 ≠ 0 ∨ year % 400 = 0) then 29 else 28
  else if month = 4 ∨ month = 6 ∨ month = 9 ∨ month = 11 then 30
  else 31

def readMonthDay (year : Nat) (text : List Char) : Option (List Char) := do
  let (month, rest) ← readTwo 1 12 text
  let rest ← expectChar '-' rest
  let (_, rest) ← readTwo 1 (daysIn year month) rest
  pure rest

/-- The part of a time after its hour and colon. -/
def readMinutes (text : List Char) : Option (List Char) := do
  let (_, rest) ← readTwo 0 59 text
  let rest ← expectChar ':' rest
  let (_, rest) ← readTwo 0 60 rest
  match rest with
  | '.' :: c :: rest => pure (if c.isDigit then rest.dropWhile Char.isDigit else '.' :: c :: rest)
  | rest => pure rest

/-- The text after the distance to universal time, if it is given. -/
def readOffset : List Char → Option (List Char)
  | 'Z' :: rest => some rest
  | 'z' :: rest => some rest
  | c :: rest =>
    if c = '+' ∨ c = '-' then do
      let (_, rest) ← readTwo 0 23 rest
      let rest ← expectChar ':' rest
      let (_, rest) ← readTwo 0 59 rest
      pure rest
    else some (c :: rest)
  | [] => some []

/-- Whether a text starts with two digits and a colon. -/
def startsTime : List Char → Bool
  | a :: b :: ':' :: _ => a.isDigit && b.isDigit
  | _ => false

/-- A time of day and the distance to universal time after a date, if they are given. -/
def readDayTime : List Char → Option (List Char)
  | c :: rest =>
    if (c = 'T' ∨ c = 't' ∨ c = ' ') ∧ startsTime rest then do
      let (_, rest) ← readTwo 0 23 rest
      let rest ← expectChar ':' rest
      let rest ← readMinutes rest
      readOffset rest
    else some (c :: rest)
  | [] => some []

/-- A number, a date or a time. No field takes a date, so only its form is checked. -/
def readNumber : List Char → Option (Data × List Char)
  | '+' :: rest => readDecimal false rest
  | '-' :: rest => readDecimal true rest
  | '0' :: 'x' :: rest => readInBase 16 rest
  | '0' :: 'o' :: rest => readInBase 8 rest
  | '0' :: 'b' :: rest => readInBase 2 rest
  | a :: b :: ':' :: rest =>
    if a.isDigit && b.isDigit then do
      let _ ← readTwo 0 23 [a, b]
      let rest ← readMinutes rest
      pure (.broken, rest)
    else readDecimal false (a :: b :: ':' :: rest)
  | a :: b :: c :: d :: '-' :: rest =>
    if [a, b, c, d].all Char.isDigit then do
      let rest ← readMonthDay (Text.valueIn 10 [a, b, c, d]) rest
      let rest ← readDayTime rest
      pure (.broken, rest)
    else readDecimal false (a :: b :: c :: d :: '-' :: rest)
  | text => readDecimal false text

end ZoneGraph.Toml

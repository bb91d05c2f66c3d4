import ZoneGraph.Json.Number

/-! JSON text as a tree. Every reader takes characters and gives what it read together
with the rest of the text. A string with half of a surrogate pair, a number beyond all
floats and a list or table nested too deep are well formed and have no value, so they
are read as broken. -/
namespace ZoneGraph.Json

/-- The number of levels that a tree may have before its parts are broken. -/
def nestingLimit : Nat := 128

/-- Whether a character may stand between tokens. -/
def isSpace (c : Char) : Bool := c = ' ' || c = '\t' || c = '\n' || c = '\r'

/-- The text after the blanks in front. -/
def skipSpace (text : List Char) : List Char := text.dropWhile isSpace

/-! ### Strings -/

/-- A part of a string: a character, or a unit of sixteen bits given by number. -/
inductive Piece where
  | char (c : Char)
  | unit (n : Nat)

/-- The character that a letter after a backslash stands for. -/
def shortEscape? : Char → Option Char
  | '"' => some '"'
  | '\\' => some '\\'
  | '/' => some '/'
  | 'b' => some '\x08'
  | 'f' => some '\x0c'
  | 'n' => some '\n'
  | 'r' => some '\r'
  | 't' => some '\t'
  | _ => none

def readPieces (pieces : List Piece) : List Char → Option (List Piece × List Char)
  | '"' :: rest => some (pieces.reverse, rest)
  | '\\' :: 'u' :: a :: b :: c :: d :: rest =>
    match Text.hexValue? a, Text.hexValue? b, Text.hexValue? c, Text.hexValue? d with
    | some a, some b, some c, some d =>
      readPieces (.unit (((a * 16 + b) * 16 + c) * 16 + d) :: pieces) rest
    | _, _, _, _ => none
  | '\\' :: c :: rest =>
    match shortEscape? c with
    | some c => readPieces (.char c :: pieces) rest
    | none => none
  | c :: rest => if c.toNat < 32 then none else readPieces (.char c :: pieces) rest
  | [] => none

/-- The characters of a string, if its units can be paired. -/
def joinPieces : List Piece → Option (List Char)
  | [] => some []
  | .char c :: rest => (joinPieces rest).map (c :: ·)
  | .unit high :: .unit low :: rest =>
    if 0xd800 ≤ high ∧ high < 0xdc00 then
      if 0xdc00 ≤ low ∧ low < 0xe000 then
        (joinPieces rest).map (Char.ofNat (0x10000 + (high - 0xd800) * 0x400 + (low - 0xdc00)) :: ·)
      else none
    else if 0xdc00 ≤ high ∧ high < 0xe000 then none
    else (joinPieces (.unit low :: rest)).map (Char.ofNat high :: ·)
  | .unit n :: rest =>
    if 0xd800 ≤ n ∧ n < 0xe000 then none else (joinPieces rest).map (Char.ofNat n :: ·)

/-- A string after its opening quote; nothing stands for a string without a value. -/
def readString (text : List Char) : Option (Option String × List Char) :=
  (readPieces [] text).map fun read => ((joinPieces read.1).map String.ofList, read.2)

/-! ### Trees -/

/-- A list, or nothing in particular when it is nested too deep. -/
def listAt (depth : Nat) (items : List Data) : Data :=
  if depth < nestingLimit then .list items else .broken

/-- A table, or nothing in particular when it is nested too deep or a key has no value. -/
def tableAt (depth : Nat) (fields : List (Option String × Data)) : Data :=
  match fields.mapM fun field => field.1.map (·, field.2) with
  | some fields => if depth < nestingLimit then .table fields else .broken
  | none => .broken

mutual

/-- A tree at the start of a text, below the given number of lists and tables. -/
def readValue : Nat → Nat → List Char → Option (Data × List Char)
  | 0, _, _ => none
  | fuel + 1, depth, text =>
    match skipSpace text with
    | '"' :: rest =>
      (readString rest).map fun read =>
        (match read.1 with | some value => .text value | none => .broken, read.2)
    | '[' :: rest =>
      match skipSpace rest with
      | ']' :: rest => some (listAt (depth + 1) [], rest)
      | rest => (readItems fuel (depth + 1) rest).map fun read => (listAt (depth + 1) read.1, read.2)
    | '\x7b' :: rest =>
      match skipSpace rest with
      | '\x7d' :: rest => some (tableAt (depth + 1) [], rest)
      | rest => (readFields fuel (depth + 1) rest).map fun read => (tableAt (depth + 1) read.1, read.2)
    | '-' :: rest => readNumber true rest
    | 't' :: rest => ("rue".toList.isPrefixOf? rest).map (.bool true, ·)
    | 'f' :: rest => ("alse".toList.isPrefixOf? rest).map (.bool false, ·)
    | 'n' :: rest => ("ull".toList.isPrefixOf? rest).map (.null, ·)
    | rest => readNumber false rest

def readItems : Nat → Nat → List Char → Option (List Data × List Char)
  | 0, _, _ => none
  | fuel + 1, depth, text => do
    let (item, rest) ← readValue fuel depth text
    match skipSpace rest with
    | ']' :: rest => pure ([item], rest)
    | ',' :: rest =>
      let (items, rest) ← readItems fuel depth rest
      pure (item :: items, rest)
    | _ => none

/-- The fields of a table up to its closing brace. -/
def readFields : Nat → Nat → List Char → Option (List (Option String × Data) × List Char)
  | 0, _, _ => none
  | fuel + 1, depth, text =>
    match skipSpace text with
    | '"' :: rest => do
      let (key, rest) ← readString rest
      match skipSpace rest with
      | ':' :: rest =>
        let (value, rest) ← readValue fuel depth rest
        match skipSpace rest with
        | '\x7d' :: rest => pure ([(key, value)], rest)
        | ',' :: rest =>
          let (fields, rest) ← readFields fuel depth rest
          pure ((key, value) :: fields, rest)
        | _ => none
      | _ => none
    | _ => none

end

/-- The tree that a whole text writes. Every list or table takes two steps of fuel at
most for each of its characters. -/
def read? (text : String) : Option Data :=
  match readValue (2 * text.length + 2) 0 text.toList with
  | some (data, rest) => if (skipSpace rest).isEmpty then some data else none
  | none => none

end ZoneGraph.Json

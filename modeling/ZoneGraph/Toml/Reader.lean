import ZoneGraph.Toml.Scalar
import ZoneGraph.Toml.Tables

/-! TOML text as a tree. A document is a list of statements, each on lines of its own:
headers, which say where the following keys belong, and keys with their values. -/
namespace ZoneGraph.Toml

/-! ### Blanks and comments -/

def skipComment (text : List Char) : List Char :=
  match text with
  | '#' :: rest => rest.dropWhile isPlain
  | text => text

/-- The text after the end of a line, with blanks and a comment before it. -/
def endLine (text : List Char) : Option (List Char) :=
  match skipComment (skipBlanks text) with
  | [] => some []
  | text => newline? text

/-- The text after blanks, ends of lines and comments. -/
def skipLines : Nat → List Char → List Char
  | 0, text => text
  | fuel + 1, text =>
    match skipBlanks text with
    | '#' :: rest => skipLines fuel (rest.dropWhile isPlain)
    | text =>
      match newline? text with
      | some rest => skipLines fuel rest
      | none => text

/-! ### Values -/

mutual

/-- A value below the given number of lists and tables. -/
def readValue : Nat → Nat → List Char → Option (Data × List Char)
  | 0, _, _ => none
  | fuel + 1, depth, text =>
    match text with
    | '"' :: _ => (readString text).map fun read => (.text read.1, read.2)
    | '\x27' :: _ => (readString text).map fun read => (.text read.1, read.2)
    | '[' :: rest =>
      if levelLimit ≤ depth + 1 then none
      else (readItems fuel (depth + 1) rest).map fun read => (.list read.1, read.2)
    | '\x7b' :: rest =>
      if levelLimit ≤ depth + 1 then none
      else
        match skipBlanks rest with
        | '\x7d' :: rest => some (.table [], rest)
        | _ => do
          let (entries, rest) ← readEntries fuel (depth + 1) rest
          let table ← inlineTable entries
          pure (table, rest)
    | 't' :: _ => ("true".toList.isPrefixOf? text).map (.bool true, ·)
    | 'f' :: _ => ("false".toList.isPrefixOf? text).map (.bool false, ·)
    | 'i' :: _ => readSpecial text
    | 'n' :: _ => readSpecial text
    | c :: _ => if c = '+' || c = '-' || c.isDigit then readNumber text else none
    | [] => none

def readItems : Nat → Nat → List Char → Option (List Data × List Char)
  | 0, _, _ => none
  | fuel + 1, depth, text =>
    match skipLines text.length text with
    | ']' :: rest => some ([], rest)
    | text => do
      let (item, rest) ← readValue fuel depth text
      match skipLines rest.length rest with
      | ']' :: rest => pure ([item], rest)
      | ',' :: rest =>
        let (items, rest) ← readItems fuel depth rest
        pure (item :: items, rest)
      | _ => none

/-- The entries of a table within braces, up to the closing one. -/
def readEntries : Nat → Nat → List Char → Option (List (List String × Data) × List Char)
  | 0, _, _ => none
  | fuel + 1, depth, text => do
    let (key, rest) ← readKey text
    let rest ← expectChar '=' rest
    let (value, rest) ← readValue fuel depth (skipBlanks rest)
    match skipBlanks rest with
    | '\x7d' :: rest => pure ([(key, value)], rest)
    | ',' :: rest =>
      let (entries, rest) ← readEntries fuel depth rest
      pure ((key, value) :: entries, rest)
    | _ => none

end

/-! ### Statements -/

inductive Statement where
  | header (key : List String)
  | itemHeader (key : List String)
  | entry (key : List String) (value : Data)

def readStatement (text : List Char) : Option (Statement × List Char) :=
  match text with
  | '[' :: '[' :: rest => do
    let (key, rest) ← readKey rest
    let rest ← expectChar ']' rest
    let rest ← expectChar ']' rest
    let rest ← endLine rest
    pure (.itemHeader key, rest)
  | '[' :: rest => do
    let (key, rest) ← readKey rest
    let rest ← expectChar ']' rest
    let rest ← endLine rest
    pure (.header key, rest)
  | text => do
    let (key, rest) ← readKey text
    let rest ← expectChar '=' rest
    let (value, rest) ← readValue (2 * rest.length + 2) 0 (skipBlanks rest)
    let rest ← endLine rest
    pure (.entry key value, rest)

/-- The statements of a text. Each takes one character at least. -/
def readStatements : Nat → List Char → Option (List Statement)
  | 0, _ => none
  | fuel + 1, text =>
    match skipBlanks text with
    | [] => some []
    | '#' :: rest => (endLine ('#' :: rest)).bind (readStatements fuel)
    | text =>
      match newline? text with
      | some rest => readStatements fuel rest
      | none => do
        let (statement, rest) ← readStatement text
        let statements ← readStatements fuel rest
        pure (statement :: statements)

/-! ### Documents -/

/-- A document while it is read: the header that is open, and what all keys hold. -/
structure Document where
  current : List String := []
  fields : Fields := []

namespace Document

def change (change : Change) (document : Document) : Option Document :=
  (change .declared document.fields).map fun table => { document with fields := table.2 }

def add (document : Document) : Statement → Option Document
  | .header key => (document.change (declare key)).map fun document => { document with current := key }
  | .itemHeader key =>
    (document.change (declareItem key)).map fun document => { document with current := key }
  | .entry key value => document.change (descend .implied document.current (putAt key value))

end Document

/-- A text without a byte order mark in front. -/
def skipMark (text : List Char) : List Char :=
  match text with
  | '\ufeff' :: rest => rest
  | text => text

def read? (text : String) : Option Data := do
  let statements ← readStatements (text.length + 1) (skipMark text.toList)
  let document ← statements.foldlM Document.add {}
  pure (.table (fieldsToData document.fields))

end ZoneGraph.Toml

import ZoneGraph.Data

/-! JSON text of a tree: in one line without blanks, or indented by two blanks a
level. Fields are written in the order the tree has them. -/
namespace ZoneGraph.Json

def hexDigit (n : Nat) : Char := (Nat.digitChar n)

def escapedChar (c : Char) : List Char :=
  if c = '"' then ['\\', '"']
  else if c = '\\' then ['\\', '\\']
  else if c = '\x08' then ['\\', 'b']
  else if c = '\x0c' then ['\\', 'f']
  else if c = '\n' then ['\\', 'n']
  else if c = '\r' then ['\\', 'r']
  else if c = '\t' then ['\\', 't']
  else if c.toNat < 32 then
    ['\\', 'u', '0', '0', hexDigit (c.toNat / 16), hexDigit (c.toNat % 16)]
  else [c]

def string (text : String) : String :=
  String.ofList ('"' :: text.toList.flatMap escapedChar ++ ['"'])

/-- The text of a tree without items. -/
def scalar : Data → String
  | .null => "null"
  | .bool true => "true"
  | .bool false => "false"
  | .int value => toString value
  | .real digits => digits
  | .text value => string value
  | _ => "null"

/-! ### One line -/

mutual

def compact : Data → String
  | .list items => "[" ++ String.intercalate "," (compactItems items) ++ "]"
  | .table fields => "\x7b" ++ String.intercalate "," (compactFields fields) ++ "\x7d"
  | data => scalar data

def compactItems : List Data → List String
  | [] => []
  | item :: rest => compact item :: compactItems rest

def compactFields : List (String × Data) → List String
  | [] => []
  | (key, value) :: rest => (string key ++ ":" ++ compact value) :: compactFields rest

end

/-! ### Indented -/

def indentation (level : Nat) : String := String.ofList (List.replicate (2 * level) ' ')

/-- Parts between brackets, each on a line of its own; brackets without parts touch. -/
def block (level : Nat) (opening closing : String) : List String → String
  | [] => opening ++ closing
  | parts =>
    opening ++ "\n" ++ String.intercalate ",\n" (parts.map (indentation (level + 1) ++ ·)) ++
      "\n" ++ indentation level ++ closing

mutual

/-- A tree that starts within a line of the given level. -/
def prettyAt (level : Nat) : Data → String
  | .list items => block level "[" "]" (prettyItems (level + 1) items)
  | .table fields => block level "\x7b" "\x7d" (prettyFields (level + 1) fields)
  | data => scalar data

def prettyItems (level : Nat) : List Data → List String
  | [] => []
  | item :: rest => prettyAt level item :: prettyItems level rest

def prettyFields (level : Nat) : List (String × Data) → List String
  | [] => []
  | (key, value) :: rest => (string key ++ ": " ++ prettyAt level value) :: prettyFields level rest

end

def pretty (data : Data) : String := prettyAt 0 data

end ZoneGraph.Json

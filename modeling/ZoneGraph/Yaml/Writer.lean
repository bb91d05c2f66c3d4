import ZoneGraph.Data
import ZoneGraph.Yaml.Scalar

/-! YAML text of a tree. Tables and lists are written in blocks, two blanks further to
the right for each level; a list that stands under a key is not indented. -/
namespace ZoneGraph.Yaml

def word (text : String) : Line := { text := text.toList }

/-- The lines of a tree that is not a block, the first of which follows what stands
before it. -/
def inlineLines : Data → List Line
  | .null => [word "null"]
  | .bool true => [word "true"]
  | .bool false => [word "false"]
  | .int value => [word (toString value)]
  | .real digits => [word digits]
  | .text value => scalarLines value.toList
  | .list _ => [word "[]"]
  | .table _ => [word "\x7b\x7d"]
  | .broken => [word "null"]

/-- Whether a key can stand before its colon on one line. -/
def isShortKey (key : String) : Bool := key.utf8ByteSize ≤ 128 && !key.toList.any isBreak

/-- Puts a text in front of the first line and moves the others to the right. -/
def mark (first : List Char) : List Line → List Line
  | [] => []
  | line :: rest => { line with text := first ++ line.text } :: rest.map Line.indent

def isListBlock : Data → Bool
  | .list (_ :: _) => true
  | _ => false

def isTableBlock : Data → Bool
  | .table (_ :: _) => true
  | _ => false

/-- A key with the lines of its value. A key that cannot stand on one line with its colon
gets a mark of its own. -/
def entryLines (key : String) (value : Data) (lines : List Line) : List Line :=
  let keyLines := scalarLines key.toList
  if isShortKey key then
    let text := (keyLines.head?.map Line.text).getD [] ++ [':']
    if isListBlock value then { text } :: lines
    else if isTableBlock value then { text } :: lines.map Line.indent
    else mark (text ++ [' ']) lines
  else mark ['?', ' '] keyLines ++ mark [':', ' '] lines

mutual

def lines : Data → List Line
  | .list (item :: rest) => mark ['-', ' '] (lines item) ++ itemLines rest
  | .table ((key, value) :: rest) => entryLines key value (lines value) ++ fieldLines rest
  | data => inlineLines data

def itemLines : List Data → List Line
  | [] => []
  | item :: rest => mark ['-', ' '] (lines item) ++ itemLines rest

def fieldLines : List (String × Data) → List Line
  | [] => []
  | (key, value) :: rest => entryLines key value (lines value) ++ fieldLines rest

end

def document (data : Data) : String :=
  String.ofList ((lines data).flatMap fun line => line.text ++ [line.ending])

end ZoneGraph.Yaml

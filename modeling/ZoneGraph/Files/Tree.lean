import ZoneGraph.Fault
import ZoneGraph.Files.Path

/-! Files, seen through the two operations that the library needs, and a tree of files
in memory on which these operations can be followed. -/
namespace ZoneGraph

/-- Access to files by path. -/
structure FileAccess (m : Type → Type) where
  read : String → m (Except FileFault String)
  write : String → String → m (Except FileFault Unit)

/-- What stands at a place: a directory, or a file with its bytes. -/
inductive FileEntry where
  | directory
  | file (bytes : ByteArray)

/-- Files by place below the working directory. A place below which something lies is a
directory too. -/
abbrev FileTree := List (List (List Char) × FileEntry)

namespace FileTree

def entry? (place : List (List Char)) (tree : FileTree) : Option FileEntry :=
  if place = [] then some .directory
  else
    match tree.find? fun entry => entry.1 = place with
    | some entry => some entry.2
    | none => if tree.any fun entry => place.isPrefixOf entry.1 then some .directory else none

def leadsNowhere (piece : List Char) : Bool := Path.isIdle piece || piece = ['.', '.']

/-- Whether a piece is longer than any name in a directory. -/
def isOverlong (piece : List Char) : Bool := decide (255 < (String.ofList piece).utf8ByteSize)

/-- Follows the pieces of a path from a directory that the tree does not hold. Such a
directory is known to lead to others like it, and to nothing that has a name. -/
def followOutside : List (List Char) → FileFault
  | [] => .isDirectory
  | piece :: rest =>
    if leadsNowhere piece then followOutside rest
    else if isOverlong piece then .nameTooLong
    else .notFound

/-- Follows the pieces of a path from a place. Everything before the last piece must be a
directory. -/
def follow (tree : FileTree) (place : List (List Char)) :
    List (List Char) → Except FileFault (List (List Char))
  | [] => .ok place
  | piece :: rest =>
    match tree.entry? place with
    | none => .error .notFound
    | some (.file _) => .error .notDirectory
    | some .directory =>
      if isOverlong piece then .error .nameTooLong
      else if Path.isIdle piece then follow tree place rest
      else if piece ≠ ['.', '.'] then follow tree (place ++ [piece]) rest
      else if place = [] then .error (followOutside rest)
      else follow tree place.dropLast rest

def place (tree : FileTree) (path : String) (pieces : List (List Char)) :
    Except FileFault (List (List Char)) :=
  if path.toList.contains '\x00' then .error .nulByte
  else if 4096 ≤ path.utf8ByteSize then .error .nameTooLong
  else if path.isEmpty then .error .notFound
  else if Path.isAbsolute path then .error (followOutside pieces)
  else follow tree [] pieces

def read (path : String) (tree : FileTree) : Except FileFault String := do
  let place ← tree.place path (Path.pieces path.toList)
  match tree.entry? place with
  | none => .error .notFound
  | some .directory => .error .isDirectory
  | some (.file bytes) =>
    match String.fromUTF8? bytes with
    | some text => .ok text
    | none => .error .notText

/-- The tree with a file put at a place, or with its text replaced. -/
def put (place : List (List Char)) (text : String) (tree : FileTree) : FileTree :=
  tree.filter (fun entry => entry.1 ≠ place) ++ [(place, .file text.toUTF8)]

/-- The pieces of a path that ends in a slash, up to the directory before its last name. -/
def directoryPieces (path : List Char) : Option (List (List Char)) :=
  if path.getLast? = some '/' then
    some (([] :: ((Path.pieces path).reverse.dropWhile (· = [])).drop 1).reverse)
  else none

/-- The tree with one more file, or with a file's text replaced. A path that ends in a
slash never names a file. -/
def write (path text : String) (tree : FileTree) : Except FileFault FileTree := do
  match directoryPieces path.toList with
  | some pieces =>
    let _ ← tree.place path pieces
    .error .isDirectory
  | none =>
    let place ← tree.place path (Path.pieces path.toList)
    match tree.entry? place with
    | some .directory => .error .isDirectory
    | _ => .ok (tree.put place text)

def access : FileAccess (StateM FileTree) where
  read path := fun tree => (tree.read path, tree)
  write path text := fun tree =>
    match tree.write path text with
    | .ok tree => (.ok (), tree)
    | .error fault => (.error fault, tree)

end FileTree

end ZoneGraph

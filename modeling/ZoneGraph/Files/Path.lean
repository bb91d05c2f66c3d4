/-! Paths as texts. A path is never tidied up: joining and cutting keep the spelling of
what is kept. -/
namespace ZoneGraph.Path

def isAbsolute (path : String) : Bool := path.toList.head? = some '/'

/-- A path looked at from a directory; an absolute one stays as it is. -/
def join (base path : String) : String :=
  if isAbsolute path ∨ base.isEmpty then path
  else if base.toList.getLast? = some '/' then base ++ path
  else base ++ "/" ++ path

def pieces (path : List Char) : List (List Char) := path.splitOn '/'

/-- Whether a piece says nothing about the place. -/
def isIdle (piece : List Char) : Bool := piece = [] ∨ piece = ['.']

/-- The pieces up to the last one that counts, with the last first. -/
def dropIdle : List (List Char) → List (List Char)
  | [] => []
  | [['.']] => [['.']]
  | piece :: rest => if isIdle piece then dropIdle rest else piece :: rest

/-- The pieces of a path without its last one that counts, with the last first. A dot in
front of a relative path counts. -/
def parentPieces (reversed : List (List Char)) : List (List Char) := dropIdle ((dropIdle reversed).drop 1)

/-- The directory that a path lies in, empty when the path has one part. -/
def parent (path : String) : String :=
  match path.toList with
  | '/' :: rest =>
    let kept := ((pieces rest).reverse.dropWhile isIdle).drop 1 |>.dropWhile isIdle
    if (pieces rest).all isIdle then ""
    else String.ofList ('/' :: List.intercalate ['/'] kept.reverse)
  | text => String.ofList (List.intercalate ['/'] (parentPieces (pieces text).reverse).reverse)

end ZoneGraph.Path

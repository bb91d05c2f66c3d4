import ZoneGraph.Data

/-! The tables of a TOML document while it is read. A table is implied by a longer
header, made by a dotted key, or declared; what may still be added to it depends on
that. -/
namespace ZoneGraph.Toml

/-- How a table came to be. -/
inductive Origin where
  | implied
  | dotted
  | declared
  deriving DecidableEq

/-- What stands under a key: a value, a table, or a list of tables in which the last one
is open. -/
inductive Node where
  | value (data : Data)
  | table (origin : Origin) (fields : List (String × Node))
  | tables (items : List Node)

abbrev Fields := List (String × Node)

/-- A change of a table, which may be refused. -/
abbrev Change := Origin → Fields → Option (Origin × Fields)

/-- Changes what stands under a key, or puts something there. -/
def alter (key : String) (change : Option Node → Option Node) : Fields → Option Fields
  | [] => (change none).map fun node => [(key, node)]
  | (k, node) :: rest =>
    if k = key then (change (some node)).map fun node => (key, node) :: rest
    else (alter key change rest).map ((k, node) :: ·)

def changeTable (change : Change) : Node → Option Node
  | .table origin fields => (change origin fields).map fun table => .table table.1 table.2
  | _ => none

def changeLast (change : Change) : List Node → Option (List Node)
  | [] => none
  | [node] => (changeTable change node).map ([·])
  | node :: rest => (changeLast change rest).map (node :: ·)

/-- Changes the table at the end of a path, making the tables on the way that are not
there yet. A dotted key does not go through a table that was declared. -/
def descend (made : Origin) : List String → Change → Change
  | [], change => change
  | key :: rest, change => fun origin fields =>
    let change := descend made rest change
    let fields := alter key (fun
      | none => changeTable change (.table made [])
      | some (.value _) => none
      | some (.tables items) => (changeLast change items).map .tables
      | some (.table origin fields) =>
        if made = .dotted ∧ origin = .declared then none else changeTable change (.table origin fields))
      fields
    fields.map (origin, ·)

/-- Puts a value under a key of its own. A dotted key adds only to tables that dotted
keys have made, a plain key only to others. -/
def put (dotted : Bool) (key : String) (data : Data) : Change := fun origin fields =>
  if decide (origin = .dotted) ≠ dotted then none
  else if fields.any fun field => field.1 = key then none
  else some (origin, fields ++ [(key, .value data)])

/-- Puts a value under a key with one part or more. -/
def putAt (key : List String) (data : Data) : Change :=
  match key.getLast? with
  | none => fun _ _ => none
  | some last => descend .dotted key.dropLast (put (1 < key.length) last data)

def declare (key : List String) : Change :=
  match key.getLast? with
  | none => fun _ _ => none
  | some last => descend .implied key.dropLast fun origin fields =>
    (alter last (fun
      | none => some (.table .declared [])
      | some (.table .implied fields) => some (.table .declared fields)
      | some _ => none) fields).map (origin, ·)

/-- Opens one more table in the list of a header. -/
def declareItem (key : List String) : Change :=
  match key.getLast? with
  | none => fun _ _ => none
  | some last => descend .implied key.dropLast fun origin fields =>
    (alter last (fun
      | none => some (.tables [.table .declared []])
      | some (.tables items) => some (.tables (items ++ [.table .declared []]))
      | some _ => none) fields).map (origin, ·)

mutual

def Node.toData : Node → Data
  | .value data => data
  | .table _ fields => .table (fieldsToData fields)
  | .tables items => .list (nodesToData items)

def nodesToData : List Node → List Data
  | [] => []
  | node :: rest => node.toData :: nodesToData rest

def fieldsToData : List (String × Node) → List (String × Data)
  | [] => []
  | (key, node) :: rest => (key, node.toData) :: fieldsToData rest

end

/-- The value of a table written within braces. -/
def inlineTable (entries : List (List String × Data)) : Option Data :=
  let table := entries.foldlM (fun table entry => putAt entry.1 entry.2 table.1 table.2)
    (Origin.declared, ([] : Fields))
  table.map fun table => .table (fieldsToData table.2)

end ZoneGraph.Toml

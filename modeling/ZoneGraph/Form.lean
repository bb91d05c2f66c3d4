import ZoneGraph.Data

/-! Forms: how values of the library are written as trees and read back. A structure is
a table of its parts by name, or a list of them in order. The kinds of document differ
in small ways, which `Dialect` names. -/
namespace ZoneGraph

/-- The kind of document a tree was read from. Parts that share one table are set aside
first and read from there. -/
inductive Dialect where
  | json
  | setAside
  | toml
  deriving DecidableEq

/-- What a value of a type is read from. -/
abbrev Reading (α : Type) := Dialect → Data → Option α

namespace Reading

variable {α : Type}

def text : Reading String := fun _ data => data.text?

def bool : Reading Bool := fun _ data => data.bool?

def word : Reading UInt32 := fun _ data => data.word?

def list (item : Reading α) : Reading (List α) := fun dialect => Data.list? (item dialect)

/-- A table of values; the last value of a key stays. -/
def keyed (value : Reading α) : Reading (Keyed α) := fun dialect => Data.keyed? (value dialect)

def option (value : Reading α) : Reading (Option α) := fun dialect => Data.option? (value dialect)

/-- Whether a tree stands for nothing, beside the name of a case. -/
def isNothing : Dialect → Data → Bool
  | .json, .null => true
  | .setAside, .null => true
  | .setAside, .table [] => true
  | .toml, .table [] => true
  | .toml, .list [] => true
  | _, _ => false

/-- A case by its name, alone or in a table where nothing stands beside it. -/
def case (ofName : String → Option α) : Reading α
  | _, .text name => ofName name
  | dialect, .table [(name, data)] => if isNothing dialect data then ofName name else none
  | _, _ => none

end Reading

/-! ### Structures -/

/-- The parts of a structure, by name. A part that is missing from a list is not the
same as one that is missing from a table. -/
structure Parts where
  dialect : Dialect
  byPosition : Bool
  entries : List (String × Data)

namespace Parts

variable {α : Type}

def occurrences (name : String) (fields : List (String × Data)) : Nat :=
  (fields.filter fun field => field.1 = name).length

/-- The parts of a table, in which no known name may occur twice. -/
def ofFields (names : List String) (dialect : Dialect) (fields : List (String × Data)) : Option Parts :=
  if names.all fun name => occurrences name fields ≤ 1 then some ⟨dialect, false, fields⟩ else none

/-- The parts of a list, in the order of the names. Only TOML lets more follow. -/
def ofItems (names : List String) (dialect : Dialect) (items : List Data) : Option Parts :=
  if items.length ≤ names.length ∨ dialect = .toml then some ⟨dialect, true, names.zip items⟩ else none

/-- The parts of a structure with the given names; other names are passed over. -/
def read (names : List String) : Reading Parts
  | dialect, .table fields => ofFields names dialect fields
  | dialect, .list items => ofItems names dialect items
  | _, _ => none

/-- The parts of a structure with exactly the given names. -/
def readClosed (names : List String) : Reading Parts
  | dialect, .table fields =>
    if fields.all fun field => field.1 ∈ names then ofFields names dialect fields else none
  | dialect, .list items => ofItems names dialect items
  | _, _ => none

def find? (name : String) (parts : Parts) : Option Data := Keyed.find? name parts.entries

def required (name : String) (value : Reading α) (parts : Parts) : Option α :=
  (parts.find? name).bind (value parts.dialect)

/-- A part that may be missing, and then has a value of its own. -/
def withDefault (name : String) (default : α) (value : Reading α) (parts : Parts) : Option α :=
  match parts.find? name with
  | some data => value parts.dialect data
  | none => some default

/-- A part that may be nothing, and may be missing from a table but not from a list. -/
def optional (name : String) (value : Reading α) (parts : Parts) : Option (Option α) :=
  match parts.find? name with
  | some data => value.option parts.dialect data
  | none => if parts.byPosition then none else some none

end Parts

end ZoneGraph

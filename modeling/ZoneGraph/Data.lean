import ZoneGraph.Keyed

/-! The tree behind every document that is read or written: a deployment file, a
server list, the synthesized document. A table keeps its fields in the order they
were written; writers that need key order build their tables with `Keyed.insert`. -/
namespace ZoneGraph

/-- A tree of plain values. A number with a fraction or an exponent is kept as its
text, since no field takes one. A `broken` part is well placed but has no value: a
number out of range, half of a surrogate pair, a date, nesting beyond the limit. It
may be skipped and never read. -/
inductive Data where
  | null
  | bool (value : Bool)
  | int (value : Int)
  | real (digits : String)
  | text (value : String)
  | list (items : List Data)
  | table (fields : List (String × Data))
  | broken

namespace Data

instance : Inhabited Data := ⟨.null⟩

def text? : Data → Option String
  | .text value => some value
  | _ => none

def bool? : Data → Option Bool
  | .bool value => some value
  | _ => none

def word? : Data → Option UInt32
  | .int value => if 0 ≤ value ∧ value < UInt32.size then some (UInt32.ofNat value.toNat) else none
  | _ => none

def list? {α : Type} (item : Data → Option α) : Data → Option (List α)
  | .list items => items.mapM item
  | _ => none

/-- A table whose values all have the wanted form; the last value of a key stays. -/
def keyed? {α : Type} (value : Data → Option α) : Data → Option (Keyed α)
  | .table fields => (fields.mapM fun field => (value field.2).map (field.1, ·)).map Keyed.ofList
  | _ => none

/-- Nothing, or something of the wanted form. -/
def option? {α : Type} (value : Data → Option α) : Data → Option (Option α)
  | .null => some none
  | data => (value data).map some

def texts (values : List String) : Data := .list (values.map .text)

/-- The tree of a value that may be missing; null when it is. -/
def ofOption {α : Type} (f : α → Data) : Option α → Data
  | none => .null
  | some value => f value

mutual

def isWhole : Data → Bool
  | .broken => false
  | .list items => areWhole items
  | .table fields => fieldsAreWhole fields
  | _ => true

def areWhole : List Data → Bool
  | [] => true
  | item :: rest => isWhole item && areWhole rest

def fieldsAreWhole : List (String × Data) → Bool
  | [] => true
  | (_, value) :: rest => isWhole value && fieldsAreWhole rest

end

end Data

end ZoneGraph

import ZoneGraph.Data

/-! The values of a record: a list of texts in order, or one expression that stands
for a whole list and is resolved later. -/
namespace ZoneGraph

inductive Values where
  | list (values : List String)
  | expression (text : String)
  deriving DecidableEq

namespace Values

def empty : Values := .list []

def single (value : String) : Values := .list [value]

/-- The values as texts; an expression is its only one. -/
def toList : Values → List String
  | .list values => values
  | .expression text => [text]

def size (values : Values) : Nat := values.toList.length

def isEmpty (values : Values) : Bool := values.toList.isEmpty

def isExpression : Values → Bool
  | .list _ => false
  | .expression _ => true

/-- Changes each value and leaves an expression alone. -/
def map (f : String → String) : Values → Values
  | .list values => .list (values.map f)
  | .expression text => .expression text

/-- A list of texts, or the bare text of an expression. -/
def toData : Values → Data
  | .list values => Data.texts values
  | .expression text => .text text

@[simp] theorem map_expression (f : String → String) (text : String) :
    (Values.expression text).map f = .expression text := rfl

@[simp] theorem map_list (f : String → String) (values : List String) :
    (Values.list values).map f = .list (values.map f) := rfl

end Values

end ZoneGraph

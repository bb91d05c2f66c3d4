/-! The formats in which results are printed. -/
namespace ZoneGraph.Cli

/-- A format: a listing for people, or a document for programs. -/
inductive OutputFormat where
  | pretty
  | json
  | yaml
  deriving DecidableEq

namespace OutputFormat

def all : List OutputFormat := [.pretty, .json, .yaml]

def name : OutputFormat → String
  | .pretty => "pretty"
  | .json => "json"
  | .yaml => "yaml"

def otherNames : OutputFormat → List String
  | .pretty => ["text"]
  | .json => []
  | .yaml => ["yml"]

def ofName? (text : String) : Option OutputFormat := all.find? fun format => format.name = text

/-- The format of any of its names, in either case of the letters. -/
def parse? (text : String) : Option OutputFormat :=
  let lower := text.map Char.toLower
  all.find? fun format => lower ∈ format.name :: format.otherNames

def unknownMessage (text : String) : String :=
  "Unknown output format: " ++ text ++ "\nValid formats: pretty, json, yaml"

end OutputFormat

end ZoneGraph.Cli

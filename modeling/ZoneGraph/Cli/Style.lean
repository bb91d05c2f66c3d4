/-! Colours of listings for people. A piece of text is painted between two escape
sequences; columns are filled up before they are painted. -/
namespace ZoneGraph.Cli

/-- What a piece of text is shown as. -/
inductive Paint where
  | success
  | heading
  | title
  | name
  | kind
  | aside
  deriving DecidableEq

namespace Paint

/-- The numbers of the escape sequence. -/
def code : Paint → String
  | .success => "1;32"
  | .heading => "1;4"
  | .title => "1"
  | .name => "36"
  | .kind => "33"
  | .aside => "2"

def start (paint : Paint) : List Char := "\x1b[".toList ++ paint.code.toList ++ ['m']

def stop : List Char := "\x1b[0m".toList

/-- A text in which the paint starts again after every end within it. -/
def restart (paint : Paint) : List Char → List Char
  | '\x1b' :: '[' :: '0' :: 'm' :: rest => stop ++ paint.start ++ restart paint rest
  | c :: rest => c :: restart paint rest
  | [] => []

end Paint

def padRight (width : Nat) (text : List Char) : List Char :=
  text ++ List.replicate (width - text.length) ' '

def padLeft (width : Nat) (text : String) : String :=
  String.ofList (List.replicate (width - text.length) ' ') ++ text

/-- A text filled up to a width and painted, if colours are wanted. -/
def painted (colors : Bool) (paint : Paint) (width : Nat) (text : String) : String :=
  String.ofList (
    if colors then paint.start ++ padRight width (paint.restart text.toList) ++ Paint.stop
    else padRight width text.toList)

end ZoneGraph.Cli

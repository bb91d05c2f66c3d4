import ZoneGraph.Text.Hidden

/-! Text between double quotes, as messages show names and tags. A quote or a
backslash gets a backslash; a character that does not show on its own is written as
its number in base sixteen. -/
namespace ZoneGraph.Text

/-- The written form of one character between double quotes. -/
def quotedChar (c : Char) : List Char :=
  if c = '"' ∨ c = '\\' then ['\\', c]
  else if c = '\x00' then ['\\', '0']
  else if c = '\t' then ['\\', 't']
  else if c = '\n' then ['\\', 'n']
  else if c = '\r' then ['\\', 'r']
  else if isHidden c then ['\\', 'u', '\x7b'] ++ Nat.toDigits 16 c.toNat ++ ['\x7d']
  else [c]

def quoted (text : String) : String :=
  String.ofList ('"' :: text.toList.flatMap quotedChar ++ ['"'])

end ZoneGraph.Text

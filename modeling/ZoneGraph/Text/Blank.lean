import ZoneGraph.Text.Ranges

/-! White space and control characters. A domain name holds neither. -/
namespace ZoneGraph.Text

def blankRanges : List (Nat × Nat) := [
    (0x9, 0xd), (0x20, 0x20), (0x85, 0x85), (0xa0, 0xa0), (0x1680, 0x1680), (0x2000, 0x200a),
    (0x2028, 0x2029), (0x202f, 0x202f), (0x205f, 0x205f), (0x3000, 0x3000)]

/-- Whether a character is white space in some script. -/
def isBlank (c : Char) : Bool := inRanges blankRanges c

def isControl (c : Char) : Bool := inRanges [(0x0, 0x1f), (0x7f, 0x9f)] c

end ZoneGraph.Text

/-! The SHA-256 digest of a list of bytes: padding to whole blocks, sixty-four rounds
over a sliding window of the message schedule for each block, and eight words of
result written with the high byte first. -/
namespace ZoneGraph.Digest.Sha256

/-- The eight words carried from block to block. -/
structure Chain where
  a : UInt32
  b : UInt32
  c : UInt32
  d : UInt32
  e : UInt32
  f : UInt32
  g : UInt32
  h : UInt32

def start : Chain :=
  ⟨0x6a09e667, 0xbb67ae85, 0x3c6ef372, 0xa54ff53a, 0x510e527f, 0x9b05688c, 0x1f83d9ab, 0x5be0cd19⟩

def constants : List UInt32 := [
  0x428a2f98, 0x71374491, 0xb5c0fbcf, 0xe9b5dba5, 0x3956c25b, 0x59f111f1, 0x923f82a4, 0xab1c5ed5,
  0xd807aa98, 0x12835b01, 0x243185be, 0x550c7dc3, 0x72be5d74, 0x80deb1fe, 0x9bdc06a7, 0xc19bf174,
  0xe49b69c1, 0xefbe4786, 0x0fc19dc6, 0x240ca1cc, 0x2de92c6f, 0x4a7484aa, 0x5cb0a9dc, 0x76f988da,
  0x983e5152, 0xa831c66d, 0xb00327c8, 0xbf597fc7, 0xc6e00bf3, 0xd5a79147, 0x06ca6351, 0x14292967,
  0x27b70a85, 0x2e1b2138, 0x4d2c6dfc, 0x53380d13, 0x650a7354, 0x766a0abb, 0x81c2c92e, 0x92722c85,
  0xa2bfe8a1, 0xa81a664b, 0xc24b8b70, 0xc76c51a3, 0xd192e819, 0xd6990624, 0xf40e3585, 0x106aa070,
  0x19a4c116, 0x1e376c08, 0x2748774c, 0x34b0bcb5, 0x391c0cb3, 0x4ed8aa4a, 0x5b9cca4f, 0x682e6ff3,
  0x748f82ee, 0x78a5636f, 0x84c87814, 0x8cc70208, 0x90befffa, 0xa4506ceb, 0xbef9a3f7, 0xc67178f2]

def rotate (word amount : UInt32) : UInt32 := (word >>> amount) ||| (word <<< (32 - amount))

def Chain.round (s : Chain) (constant word : UInt32) : Chain :=
  let mixE := rotate s.e 6 ^^^ rotate s.e 11 ^^^ rotate s.e 25
  let choice := (s.e &&& s.f) ^^^ (~~~s.e &&& s.g)
  let t := s.h + mixE + choice + constant + word
  let mixA := rotate s.a 2 ^^^ rotate s.a 13 ^^^ rotate s.a 22
  let majority := (s.a &&& s.b) ^^^ (s.a &&& s.c) ^^^ (s.b &&& s.c)
  ⟨t + (mixA + majority), s.a, s.b, s.c, s.d + t, s.e, s.f, s.g⟩

/-- The word of the schedule that enters as `word` leaves its window of sixteen. -/
def nextWord (word : UInt32) (window : List UInt32) : UInt32 :=
  let near := window.getD 0 0
  let far := window.getD 13 0
  let mixNear := rotate near 7 ^^^ rotate near 18 ^^^ (near >>> 3)
  let mixFar := rotate far 17 ^^^ rotate far 19 ^^^ (far >>> 10)
  mixFar + window.getD 8 0 + mixNear + word

/-- The rounds for the given constants, the window holding the words to come. -/
def rounds : List UInt32 → List UInt32 → Chain → Chain
  | constant :: constants, word :: window, s =>
    rounds constants (window ++ [nextWord word window]) (s.round constant word)
  | _, _, s => s

def Chain.add (s t : Chain) : Chain :=
  ⟨s.a + t.a, s.b + t.b, s.c + t.c, s.d + t.d, s.e + t.e, s.f + t.f, s.g + t.g, s.h + t.h⟩

/-- The words of a list of bytes, high byte first. -/
def words : List UInt8 → List UInt32
  | w :: x :: y :: z :: rest =>
    ((w.toUInt32 <<< 24) ||| (x.toUInt32 <<< 16) ||| (y.toUInt32 <<< 8) ||| z.toUInt32) :: words rest
  | _ => []

/-- The bytes of a number of eight bytes, high byte first. -/
def lengthBytes (bits : Nat) : List UInt8 :=
  [56, 48, 40, 32, 24, 16, 8, 0].map fun shift => UInt8.ofNat (bits >>> shift)

/-- The message followed by a one bit, zeros up to a whole block, and its length in bits. -/
def padded (message : List UInt8) : List UInt8 :=
  let zeros := (119 - message.length % 64) % 64
  message ++ 0x80 :: List.replicate zeros 0 ++ lengthBytes (8 * message.length)

def absorb : Nat → List UInt32 → Chain → Chain
  | 0, _, s => s
  | n + 1, message, s => absorb n (message.drop 16) (s.add (rounds constants (message.take 16) s))

def digestWords (message : List UInt8) : List UInt32 :=
  let whole := padded message
  let s := absorb (whole.length / 64) (words whole) start
  [s.a, s.b, s.c, s.d, s.e, s.f, s.g, s.h]

/-- A word in base sixteen, with all eight digits. -/
def hexWord (word : UInt32) : List Char :=
  [28, 24, 20, 16, 12, 8, 4, 0].map fun shift => Nat.digitChar ((word.toNat >>> shift) % 16)

/-- The digest of a text's UTF-8 bytes in base sixteen, in lower case. -/
def hexDigest (text : String) : List Char :=
  (digestWords text.toUTF8.toList).flatMap hexWord

end ZoneGraph.Digest.Sha256

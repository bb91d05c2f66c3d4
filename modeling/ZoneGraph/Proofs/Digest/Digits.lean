import ZoneGraph.Digest.Sha256
import Mathlib.Data.UInt

/-! The digits of a digest. A digest is thirty-two bytes, those of its eight words from the
highest on. In base sixteen every byte takes two digits, also one below sixteen, so the
digits stand for the bytes one to one, and the first digits tell the first bytes. -/
namespace ZoneGraph.Digest.Sha256

def wordBytes (word : UInt32) : List UInt8 := [24, 16, 8, 0].map fun shift => UInt8.ofNat (word.toNat >>> shift)

def digest (message : List UInt8) : List UInt8 := (digestWords message).flatMap wordBytes

/-- A byte in base sixteen, with both digits. -/
def hexByte (byte : UInt8) : List Char := [Nat.digitChar (byte.toNat / 16), Nat.digitChar (byte.toNat % 16)]

/-- Whether a character is a digit in base sixteen, in lower case. -/
def IsHexDigit (c : Char) : Prop := c ∈ "0123456789abcdef".toList

theorem length_digest (message : List UInt8) : (digest message).length = 32 := by
  simp [digest, digestWords, wordBytes]

/-- Four bits further up stands the high half of a byte. -/
theorem hexByte_shiftRight (bits shift : Nat) : hexByte (UInt8.ofNat (bits >>> shift)) =
    [Nat.digitChar ((bits >>> (shift + 4)) % 16), Nat.digitChar ((bits >>> shift) % 16)] := by
  have hhigh : (bits >>> shift) % 2 ^ 8 / 16 = (bits >>> (shift + 4)) % 16 := by
    rw [Nat.shiftRight_add, Nat.shiftRight_eq_div_pow _ 4]
    omega
  have hlow : (bits >>> shift) % 2 ^ 8 % 16 = (bits >>> shift) % 16 := by omega
  rw [hexByte, UInt8.toNat_ofNat', hhigh, hlow]

theorem flatMap_wordBytes (word : UInt32) : (wordBytes word).flatMap hexByte = hexWord word := by
  simp only [wordBytes, List.map_cons, List.map_nil, List.flatMap_cons, List.flatMap_nil, hexByte_shiftRight]
  rfl

theorem hexDigest_eq (text : String) : hexDigest text = (digest text.toUTF8.toList).flatMap hexByte := by
  rw [hexDigest, digest, List.flatMap_assoc]
  simp only [flatMap_wordBytes]

theorem isHexDigit_digitChar : ∀ n < 16, IsHexDigit (Nat.digitChar n) := by
  unfold IsHexDigit
  decide

theorem digitChar_inj : ∀ m < 16, ∀ n < 16, Nat.digitChar m = Nat.digitChar n → m = n := by
  decide

theorem isHexDigit_of_mem_hexByte {byte : UInt8} {c : Char} (h : c ∈ hexByte byte) : IsHexDigit c := by
  have hbyte : byte.toNat < 256 := byte.toNat_lt
  rcases List.mem_pair.mp h with rfl | rfl
  · exact isHexDigit_digitChar _ (by omega)
  · exact isHexDigit_digitChar _ (by omega)

theorem length_flatMap_hexByte (bytes : List UInt8) : (bytes.flatMap hexByte).length = 2 * bytes.length := by
  simp [hexByte, mul_comm]

theorem hexByte_inj {byte other : UInt8} (h : hexByte byte = hexByte other) : byte = other := by
  have hbyte : byte.toNat < 256 := byte.toNat_lt
  have hother : other.toNat < 256 := other.toNat_lt
  obtain ⟨hhigh, hlow⟩ := List.cons.inj h
  have hquotient := digitChar_inj _ (by omega) _ (by omega) hhigh
  have hremainder := digitChar_inj _ (by omega) _ (by omega) (List.cons.inj hlow).1
  refine UInt8.toNat_inj.mp ?_
  omega

/-- The digits of the first bytes are the first digits, twice as many. -/
theorem take_flatMap_hexByte (count : Nat) (bytes : List UInt8) :
    (bytes.flatMap hexByte).take (2 * count) = (bytes.take count).flatMap hexByte := by
  induction bytes generalizing count with
  | nil => simp
  | cons byte bytes ih =>
    cases count with
    | zero => rfl
    | succ count =>
      rw [Nat.mul_succ, List.flatMap_cons, List.take_succ_cons, List.flatMap_cons, ← ih]
      rfl

theorem flatMap_hexByte_inj {bytes others : List UInt8} :
    bytes.flatMap hexByte = others.flatMap hexByte ↔ bytes = others := by
  refine ⟨fun h => ?_, congrArg _⟩
  induction bytes generalizing others with
  | nil =>
    cases others with
    | nil => rfl
    | cons other others => cases h
  | cons byte bytes ih =>
    cases others with
    | nil => cases h
    | cons other others =>
      obtain ⟨hfirst, hrest⟩ := List.append_inj h rfl
      rw [hexByte_inj hfirst, ih hrest]

/-- The first eight digits of a digest are those of its first four bytes. -/
theorem take_hexDigest (text : String) :
    (hexDigest text).take 8 = ((digest text.toUTF8.toList).take 4).flatMap hexByte := by
  rw [hexDigest_eq]
  exact take_flatMap_hexByte 4 _

end ZoneGraph.Digest.Sha256

/-!
# Code points

A code point is a character, or half of a surrogate pair that stands alone. No file holds such a
half, but the escapes of a JSON string can make one; it then goes wherever a character goes, and is
refused only when it has to be written. Characters stand for their code points.
-/

set_option autoImplicit false

namespace CondParam

inductive CodePoint where
  | char (c : Char)
  | half (n : Fin 0x800)
  deriving DecidableEq, Repr

instance : Coe Char CodePoint := ⟨.char⟩

namespace CodePoint

/-- The number of a code point; the halves have the numbers that no character has. -/
def toNat : CodePoint → Nat
  | char c => c.toNat
  | half n => 0xD800 + n

/-- The code point with a number. -/
def ofNat (n : Nat) : CodePoint :=
  if h : 0xD800 ≤ n ∧ n < 0xE000 then half ⟨n - 0xD800, by omega⟩ else char (Char.ofNat n)

/-- The character that a code point is, unless it is half of a pair. -/
def char? : CodePoint → Option Char
  | char c => some c
  | half _ => none

/-- How many bytes it takes in a file. -/
def utf8Size : CodePoint → Nat
  | char c => c.utf8Size
  | half _ => 3

/-- ASCII letters. -/
def isAlpha (c : CodePoint) : Bool := c.char?.any Char.isAlpha

/-- ASCII digits. -/
def isDigit (c : CodePoint) : Bool := c.char?.any Char.isDigit

/-- ASCII letters and digits. -/
def isAlphanum (c : CodePoint) : Bool := c.char?.any Char.isAlphanum

/-- ASCII capitals made small. -/
def toLower : CodePoint → CodePoint
  | char c => char c.toLower
  | half n => half n

@[simp] theorem toNat_char (c : Char) : (char c).toNat = c.toNat := rfl

@[simp] theorem isAlpha_char (c : Char) : (char c).isAlpha = c.isAlpha := rfl

@[simp] theorem isDigit_char (c : Char) : (char c).isDigit = c.isDigit := rfl

@[simp] theorem isAlphanum_char (c : Char) : (char c).isAlphanum = c.isAlphanum := rfl

@[simp] theorem toLower_char (c : Char) : (char c).toLower = char c.toLower := rfl

theorem toNat_inj {c d : CodePoint} : c.toNat = d.toNat ↔ c = d := by
  refine ⟨fun h => ?_, congrArg toNat⟩
  match c, d with
  | char c, char d => exact congrArg char (Char.toNat_inj.1 h)
  | half m, half n => exact congrArg half (Fin.ext (Nat.add_left_cancel h))
  | char c, half n =>
    have hc := c.valid
    have hn := n.isLt
    simp only [toNat, Char.toNat, UInt32.isValidChar, Nat.isValidChar] at h hc
    omega
  | half n, char c =>
    have hc := c.valid
    have hn := n.isLt
    simp only [toNat, Char.toNat, UInt32.isValidChar, Nat.isValidChar] at h hc
    omega

@[simp] theorem ofNat_toNat (c : CodePoint) : ofNat c.toNat = c := by
  match c with
  | half n => simp [ofNat, toNat, Nat.add_comm 0xD800]
  | char c =>
    have hc := c.valid
    simp only [UInt32.isValidChar, Nat.isValidChar] at hc
    have : ¬ (0xD800 ≤ c.toNat ∧ c.toNat < 0xE000) := by simp only [Char.toNat]; omega
    simp [ofNat, toNat, this]

end CodePoint

end CondParam

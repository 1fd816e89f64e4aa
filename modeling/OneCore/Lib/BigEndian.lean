/-
# Numbers of two bytes
-/
import Mathlib

namespace BigEndian

/-- The two lower bytes of a number, the more significant one first. -/
def bytes (n : ℕ) : List UInt8 := [UInt8.ofNat (n / 256), UInt8.ofNat n]

/-- The number that two bytes stand for. -/
def value (hi lo : UInt8) : ℕ := hi.toNat * 256 + lo.toNat

lemma value_ofNat (n : ℕ) : value (UInt8.ofNat (n / 256)) (UInt8.ofNat n) = n % 65536 := by
  simp only [value, UInt8.toNat_ofNat']
  omega

end BigEndian

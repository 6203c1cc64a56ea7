import Mathlib.Algebra.Order.Ring.Nat

/-! The order of strings is that of their bytes. A character with a greater code takes a greater lead byte, or the same
one and then greater digits to the base 64. -/

namespace TagLang

/-- The bytes of a string. -/
def bytesOf (s : String) : List UInt8 := s.toUTF8.data.toList

namespace ByteOrder

theorem toNat_lt (c : Char) : c.toNat < 1114112 := by
  rcases c.valid with low | ⟨_, high⟩
  · exact Nat.lt_trans low (by decide)
  · exact high

end ByteOrder

end TagLang

/-! Numbers: the integers of 64 bits with sign. Every operation is exact and answers `none` where the
result has no such number. -/

namespace TagLang

structure Number where
  val : Int
  lower : -9223372036854775808 ≤ val
  upper : val < 9223372036854775808
deriving DecidableEq

namespace Number

def ofInt? (n : Int) : Option Number :=
  if bounds : -9223372036854775808 ≤ n ∧ n < 9223372036854775808 then some ⟨n, bounds.1, bounds.2⟩ else none

def zero : Number := ⟨0, by decide, by decide⟩
def one : Number := ⟨1, by decide, by decide⟩
def least : Number := ⟨-9223372036854775808, by decide, by decide⟩
def greatest : Number := ⟨9223372036854775807, by decide, by decide⟩

instance : LT Number := ⟨fun a b => a.val < b.val⟩
instance : LE Number := ⟨fun a b => a.val ≤ b.val⟩
instance (a b : Number) : Decidable (a < b) := inferInstanceAs (Decidable (a.val < b.val))
instance (a b : Number) : Decidable (a ≤ b) := inferInstanceAs (Decidable (a.val ≤ b.val))

def isZero (a : Number) : Bool := a.val == 0

def isNegative (a : Number) : Bool := decide (a.val < 0)

def compare (a b : Number) : Ordering := compareOfLessAndEq a.val b.val

def add? (a b : Number) : Option Number := ofInt? (a.val + b.val)

def sub? (a b : Number) : Option Number := ofInt? (a.val - b.val)

def mul? (a b : Number) : Option Number := ofInt? (a.val * b.val)

def neg? (a : Number) : Option Number := ofInt? (-a.val)

def div? (a b : Number) : Option Number := if b.isZero then none else ofInt? (a.val.tdiv b.val)

/-- The remainder that is zero or has the divisor's sign. -/
def mod? (a b : Number) : Option Number := if b.isZero then none else ofInt? (a.val.fmod b.val)

/-- Exponentiation, with `0 ** 0 = 1`. Beyond exponent 63 only the bases 0, 1 and -1 have a power in
range, so no larger power is ever computed. -/
def pow? (a exponent : Number) : Option Number :=
  if exponent.isNegative then none
  else if a.val = 0 then some (if exponent.isZero then one else zero)
  else if a.val = 1 then some one
  else if a.val = -1 then ofInt? (if exponent.val % 2 = 0 then 1 else -1)
  else if exponent.val ≤ 63 then ofInt? (a.val.pow exponent.val.toNat)
  else none

def text (a : Number) : String := toString a.val

end Number

end TagLang

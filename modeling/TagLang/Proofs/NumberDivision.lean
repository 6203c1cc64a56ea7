import Mathlib.Data.Int.ModEq
import TagLang.Proofs.NumberPowers

/-! Division of numbers. A quotient is rounded toward zero, and a remainder is zero or has the divisor's sign; the two
belong together up to one addition of the divisor. Only one quotient by a divisor that is not zero is no number, and
every remainder is one. -/

namespace TagLang

namespace Number

/-- The integers that are zero or have the sign of another one. -/
def TakesSign (other n : Int) : Prop := n = 0 ∨ (n < 0 ↔ other < 0)

instance (other n : Int) : Decidable (TakesSign other n) := inferInstanceAs (Decidable (_ ∨ _))

/-- The quotient rounded toward zero: the most whole divisors that a dividend holds, with the sign that the two give. -/
structure Truncated (dividend divisor quotient : Int) : Prop where
  holds : quotient.natAbs * divisor.natAbs ≤ dividend.natAbs
  most : dividend.natAbs < (quotient.natAbs + 1) * divisor.natAbs
  sign : quotient = 0 ∨ quotient.sign = dividend.sign * divisor.sign

/-- The remainder that is zero or has the divisor's sign. -/
structure Floored (dividend divisor remainder : Int) : Prop where
  congruent : remainder ≡ dividend [ZMOD divisor]
  small : remainder.natAbs < divisor.natAbs
  sign : TakesSign divisor remainder

theorem Truncated.unique {dividend divisor left right : Int} (truncated : Truncated dividend divisor left)
    (also : Truncated dividend divisor right) : left = right := by
  have first := Nat.div_eq_of_lt_le truncated.holds truncated.most
  have size : left.natAbs = right.natAbs := first.symm.trans (Nat.div_eq_of_lt_le also.holds also.most)
  rcases truncated.sign with zero | signed
  · omega
  · rcases also.sign with zero | likewise
    · omega
    · rw [← Int.sign_mul_natAbs left, ← Int.sign_mul_natAbs right, size, signed, likewise]

theorem truncated_tdiv (dividend divisor : Int) (nonzero : divisor ≠ 0) :
    Truncated dividend divisor (dividend.tdiv divisor) := by
  have size : (dividend.tdiv divisor).natAbs = dividend.natAbs / divisor.natAbs := Int.natAbs_tdiv dividend divisor
  have positive : 0 < divisor.natAbs := Int.natAbs_pos.mpr nonzero
  refine ⟨?_, ?_, ?_⟩
  · rw [size]
    exact Nat.div_mul_le_self _ _
  · rw [size, Nat.mul_comm]
    exact Nat.lt_mul_div_succ _ positive
  · by_cases small : dividend.natAbs < divisor.natAbs
    · rw [Nat.div_eq_of_lt small] at size
      exact .inl (Int.natAbs_eq_zero.mp size)
    · have signed := Int.sign_tdiv dividend divisor
      rw [if_neg small] at signed
      exact .inr signed

theorem Floored.unique {dividend divisor left right : Int} (floored : Floored dividend divisor left)
    (also : Floored dividend divisor right) : left = right := by
  obtain ⟨congruent, small, sign⟩ := floored
  obtain ⟨likewise, bound, same⟩ := also
  have multiple : divisor ∣ left - right := (likewise.trans congruent.symm).dvd
  -- On one side of zero, two remainders are less than a divisor apart.
  have near : (left - right).natAbs < divisor.natAbs := by
    unfold TakesSign at sign same
    omega
  exact Int.sub_eq_zero.mp (Int.eq_zero_of_dvd_of_natAbs_lt_natAbs multiple near)

theorem tmod_congruent (dividend divisor : Int) : dividend.tmod divisor ≡ dividend [ZMOD divisor] := by
  have whole := Int.tmod_add_tdiv_mul dividend divisor
  exact Int.modEq_iff_dvd.mpr ⟨dividend.tdiv divisor, by rw [Int.mul_comm]; omega⟩

theorem tmod_small (dividend divisor : Int) (nonzero : divisor ≠ 0) :
    (dividend.tmod divisor).natAbs < divisor.natAbs := by
  rw [Int.natAbs_tmod]
  exact Nat.mod_lt _ (Int.natAbs_pos.mpr nonzero)

theorem tmod_takesSign (dividend divisor : Int) : TakesSign dividend (dividend.tmod divisor) := by
  rw [TakesSign]
  have sign := Int.sign_tmod dividend divisor
  split at sign
  next => exact .inl (Int.sign_eq_zero_iff_zero.mp sign)
  next => exact .inr (by rw [← Int.sign_eq_neg_one_iff_neg, sign, Int.sign_eq_neg_one_iff_neg])

theorem floored_fmod (dividend divisor : Int) (nonzero : divisor ≠ 0) :
    Floored dividend divisor (dividend.fmod divisor) := by
  have whole := Int.mul_fdiv_add_fmod dividend divisor
  have nonneg := Int.emod_nonneg dividend nonzero
  have bound := Int.emod_lt dividend nonzero
  have divides : divisor ∣ dividend ↔ dividend % divisor = 0 := Int.dvd_iff_emod_eq_zero
  refine ⟨Int.modEq_iff_dvd.mpr ⟨dividend.fdiv divisor, by omega⟩, ?_, ?_⟩ <;> rw [Int.fmod_eq_emod]
  · split <;> omega
  · unfold TakesSign
    split <;> omega

/-- The remainder as a formula: adding the divisor gives the truncated remainder the divisor's sign. -/
theorem floored_formula (dividend divisor : Int) (nonzero : divisor ≠ 0) :
    Floored dividend divisor ((dividend.tmod divisor + divisor).tmod divisor) := by
  have small := tmod_small dividend divisor nonzero
  refine ⟨?_, tmod_small _ divisor nonzero, ?_⟩
  · calc (dividend.tmod divisor + divisor).tmod divisor
        ≡ dividend.tmod divisor + divisor [ZMOD divisor] := tmod_congruent _ divisor
      _ ≡ dividend.tmod divisor [ZMOD divisor] := Int.add_modEq_right
      _ ≡ dividend [ZMOD divisor] := tmod_congruent dividend divisor
  · -- The truncated remainder is smaller than the divisor, so the sum already has the divisor's sign.
    have sign := tmod_takesSign (dividend.tmod divisor + divisor) divisor
    unfold TakesSign at sign ⊢
    omega

theorem floored_adjusted (dividend divisor : Int) (nonzero : divisor ≠ 0) :
    Floored dividend divisor (if TakesSign divisor (dividend.tmod divisor) then dividend.tmod divisor
      else dividend.tmod divisor + divisor) := by
  have small := tmod_small dividend divisor nonzero
  have congruent := tmod_congruent dividend divisor
  split
  next sign => exact ⟨congruent, small, sign⟩
  next opposite =>
    unfold TakesSign at opposite
    exact ⟨Int.add_modEq_right.trans congruent, by omega, .inr (by omega)⟩

/-- All remainders but those of a zero divisor are numbers: they lie between zero and the divisor. -/
theorem Floored.inRange {dividend divisor remainder : Int} (floored : Floored dividend divisor remainder)
    (within : InRange divisor) : InRange remainder := by
  obtain ⟨_, small, sign⟩ := floored
  unfold TakesSign at sign
  unfold InRange at within ⊢
  omega

theorem mod?_of_floored (a b : Number) (remainder : Int) (nonzero : b.val ≠ 0)
    (floored : Floored a.val b.val remainder) : a.mod? b = ofInt? remainder := by
  rw [floored.unique (floored_fmod a.val b.val nonzero)]
  exact if_neg (by simpa [isZero] using nonzero)

theorem mod?_of_zero (a b : Number) (zero : b.val = 0) : a.mod? b = none := if_pos (by simpa [isZero] using zero)

theorem mod?_eq_some_iff (a b m : Number) :
    a.mod? b = some m ↔ b.val ≠ 0 ∧ Floored a.val b.val m.val := by
  by_cases zero : b.val = 0
  · simp [mod?_of_zero a b zero, zero]
  · have floored := floored_fmod a.val b.val zero
    rw [mod?_of_floored a b _ zero floored, ofInt?_eq_some_iff]
    exact ⟨fun same => ⟨zero, same ▸ floored⟩, fun ⟨_, also⟩ => also.unique floored⟩

theorem mod?_eq_none_iff (a b : Number) : a.mod? b = none ↔ b.val = 0 := by
  by_cases zero : b.val = 0
  · exact iff_of_true (mod?_of_zero a b zero) zero
  · have floored := floored_fmod a.val b.val zero
    rw [mod?_of_floored a b _ zero floored, ofInt?_eq_none_iff]
    exact iff_of_false (not_not_intro (floored.inRange b.inRange_val)) zero

/-- A truncated quotient is no larger than its dividend, so it is a number unless the least one loses its sign. -/
theorem Truncated.inRange_iff {dividend divisor quotient : Int} (truncated : Truncated dividend divisor quotient)
    (nonzero : divisor ≠ 0) (within : InRange dividend) :
    InRange quotient ↔ ¬ (dividend = -2 ^ 63 ∧ divisor = -1) := by
  unfold InRange at within ⊢
  by_cases unit : divisor.natAbs = 1
  · have exact := truncated.unique (truncated_tdiv dividend divisor nonzero)
    obtain rfl | rfl : divisor = 1 ∨ divisor = -1 := by omega
    · rw [Int.tdiv_one] at exact
      omega
    · rw [Int.tdiv_neg, Int.tdiv_one] at exact
      omega
  · have halved : quotient.natAbs * 2 ≤ quotient.natAbs * divisor.natAbs := Nat.mul_le_mul_left _ (by omega)
    have holds := truncated.holds
    omega

theorem div?_of_truncated (a b : Number) (quotient : Int) (nonzero : b.val ≠ 0)
    (truncated : Truncated a.val b.val quotient) : a.div? b = ofInt? quotient := by
  rw [truncated.unique (truncated_tdiv a.val b.val nonzero)]
  exact if_neg (by simpa [isZero] using nonzero)

theorem div?_eq_some_iff (a b q : Number) : a.div? b = some q ↔ b.val ≠ 0 ∧ Truncated a.val b.val q.val := by
  by_cases zero : b.val = 0
  · simp [div?, isZero, zero]
  · have truncated := truncated_tdiv a.val b.val zero
    rw [div?_of_truncated a b _ zero truncated, ofInt?_eq_some_iff]
    exact ⟨fun same => ⟨zero, same ▸ truncated⟩, fun ⟨_, also⟩ => also.unique truncated⟩

/-- The remainder by steps that each give a number or none: the truncated remainder, and the divisor added to it where
the two have opposite signs. -/
def modInSteps? (a b : Number) : Option Number := do
  if b.isZero then none
  else if b.val = -1 then some zero
  else
    let remainder ← ofInt? (a.val.tmod b.val)
    if remainder.val ≠ 0 ∧ remainder.isNegative ≠ b.isNegative then remainder.add? b else some remainder

/-- No step on the way to a remainder leaves the numbers. -/
theorem mod?_eq_modInSteps? (a b : Number) : a.mod? b = a.modInSteps? b := by
  unfold modInSteps?
  by_cases zero : b.val = 0
  · rw [if_pos (by simpa [isZero] using zero), mod?_eq_none_iff, zero]
  rw [if_neg (by simpa [isZero] using zero)]
  split
  next minus =>
    have remainder : Floored a.val b.val 0 := ⟨Int.modEq_iff_dvd.mpr (by simp [minus]), by omega, .inl rfl⟩
    exact (mod?_eq_some_iff a b Number.zero).mpr ⟨zero, remainder⟩
  next =>
    have floored := floored_adjusted a.val b.val zero
    have small := tmod_small a.val b.val zero
    have within : InRange (a.val.tmod b.val) := by
      obtain ⟨lower, upper⟩ := b.inRange_val
      constructor <;> omega
    obtain ⟨remainder, exact⟩ := exists_of_inRange within
    have opposite : (remainder.val ≠ 0 ∧ remainder.isNegative ≠ b.isNegative) ↔ ¬ TakesSign b.val remainder.val := by
      simp [TakesSign, isNegative]
    rw [← exact] at floored ⊢
    rw [(ofInt?_eq_some_iff _ remainder).mpr rfl, Option.bind_eq_bind, Option.bind_some]
    simp only [opposite, ite_not]
    split at floored
    next sign =>
      rw [if_pos sign]
      exact (mod?_eq_some_iff a b remainder).mpr ⟨zero, floored⟩
    next sign =>
      obtain ⟨moved, sum⟩ := exists_of_inRange (floored.inRange b.inRange_val)
      rw [if_neg sign, add?, (ofInt?_eq_some_iff _ moved).mpr sum]
      exact (mod?_eq_some_iff a b moved).mpr ⟨zero, sum ▸ floored⟩

/-- A remainder is refused for a zero divisor only. It is the truncated remainder with the divisor added, reduced once
more, which is the one integer that is congruent to the dividend, smaller than the divisor, and zero or of its sign;
computed by checked steps it comes to the same. A quotient is the one rounded toward zero, and what it leaves of the
dividend is the remainder, less the divisor where the signs differ. -/
theorem mod?_floored (a b : Number) :
    (a.mod? b = none ↔ b.val = 0) ∧
    (∀ m, a.mod? b = some m → m.val = (a.val.tmod b.val + b.val).tmod b.val ∧ Floored a.val b.val m.val) ∧
    (b.val ≠ 0 → ∀ n, n = (a.val.tmod b.val + b.val).tmod b.val ↔ Floored a.val b.val n) ∧
    a.mod? b = a.modInSteps? b ∧
    (∀ q, a.div? b = some q ↔ b.val ≠ 0 ∧ Truncated a.val b.val q.val) ∧
    ∀ q, a.div? b = some q → ∃ m, a.mod? b = some m ∧
      m.val = if TakesSign b.val (a.val - q.val * b.val) then a.val - q.val * b.val
        else a.val - q.val * b.val + b.val := by
  have formula (nonzero : b.val ≠ 0) := floored_formula a.val b.val nonzero
  refine ⟨mod?_eq_none_iff a b, ?_, ?_, mod?_eq_modInSteps? a b, div?_eq_some_iff a b, ?_⟩
  · intro m found
    obtain ⟨nonzero, floored⟩ := (mod?_eq_some_iff a b m).mp found
    exact ⟨floored.unique (formula nonzero), floored⟩
  · intro nonzero n
    exact ⟨fun same => same ▸ formula nonzero, fun floored => floored.unique (formula nonzero)⟩
  · intro q found
    obtain ⟨nonzero, truncated⟩ := (div?_eq_some_iff a b q).mp found
    have left : a.val - q.val * b.val = a.val.tmod b.val := by
      rw [truncated.unique (truncated_tdiv a.val b.val nonzero), Int.tmod_def, Int.mul_comm]
    have floored := floored_adjusted a.val b.val nonzero
    obtain ⟨m, exact⟩ := exists_of_inRange (floored.inRange b.inRange_val)
    rw [left]
    exact ⟨m, (mod?_eq_some_iff a b m).mpr ⟨nonzero, exact ▸ floored⟩, exact⟩

/-- The least number by -1, which has no quotient and the remainder zero, and by the greatest one, where the quotient
leaves -1. -/
theorem mod?_floored_edges :
    let minus : Number := ⟨-1, by decide, by decide⟩
    let remainder : Number := ⟨9223372036854775806, by decide, by decide⟩
    (least.mod? minus = some zero ∧ Floored least.val (-1) 0 ∧ 0 = (least.val.tmod (-1) + -1).tmod (-1) ∧
      least.div? minus = none) ∧
    (least.mod? greatest = some remainder ∧ Floored least.val greatest.val remainder.val ∧
      least.div? greatest = some minus ∧ ∃ m, least.mod? greatest = some m ∧ m.val = -1 + greatest.val) := by
  intro minus remainder
  have byMinus : least.mod? minus = some zero := by decide
  have byGreatest : least.mod? greatest = some remainder := by decide
  have quotient : least.div? greatest = some minus := by decide
  obtain ⟨_, valued, formula, _⟩ := mod?_floored least minus
  obtain ⟨_, also, _, _, _, related⟩ := mod?_floored least greatest
  have floored := (valued zero byMinus).2
  exact ⟨⟨byMinus, floored, (formula (by decide) 0).mpr floored, by decide⟩, byGreatest,
    (also remainder byGreatest).2, quotient, related minus quotient⟩

end Number

end TagLang

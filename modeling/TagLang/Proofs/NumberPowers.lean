import Mathlib.Algebra.Order.Ring.Int
import Mathlib.Algebra.Ring.Parity
import TagLang.Number

/-! Powers of numbers. A power is computed exactly where it is a number and refused everywhere else: where powers are
no longer computed, every base but 0, 1 and -1 has outgrown the numbers. It makes no difference at which exponent from
63 on that is. -/

namespace TagLang

namespace Number

/-- The integers that are numbers. -/
def InRange (n : Int) : Prop := -2 ^ 63 ≤ n ∧ n ≤ 2 ^ 63 - 1

theorem inRange_val (a : Number) : InRange a.val := ⟨a.lower, Int.le_sub_one_of_lt a.upper⟩

theorem exists_of_inRange {n : Int} (within : InRange n) : ∃ a : Number, a.val = n :=
  ⟨⟨n, within.1, Int.lt_of_le_sub_one within.2⟩, rfl⟩

theorem ofInt?_eq_some_iff (n : Int) (a : Number) : ofInt? n = some a ↔ a.val = n := by
  unfold ofInt?
  constructor
  · intro found
    split at found
    next => rw [← Option.some.inj found]
    next => cases found
  · rintro rfl
    simp [a.lower, a.upper]

theorem ofInt?_isSome_iff (n : Int) : (ofInt? n).isSome ↔ InRange n := by
  constructor
  · intro found
    obtain ⟨a, found⟩ := Option.isSome_iff_exists.mp found
    exact (ofInt?_eq_some_iff n a).mp found ▸ a.inRange_val
  · intro within
    obtain ⟨a, exact⟩ := exists_of_inRange within
    exact Option.isSome_of_eq_some ((ofInt?_eq_some_iff n a).mpr exact)

theorem ofInt?_eq_none_iff (n : Int) : ofInt? n = none ↔ ¬ InRange n := by
  rw [← ofInt?_isSome_iff, Option.not_isSome_iff_eq_none]

/-- Every base but 0, 1 and -1 has outgrown the numbers at exponent 64. -/
theorem not_inRange_pow (base : Int) (exponent : Nat) (large : 2 ≤ base.natAbs) (beyond : 64 ≤ exponent) :
    ¬ InRange (base ^ exponent) := by
  have grown : 2 ^ 64 ≤ (base ^ exponent).natAbs :=
    calc 2 ^ 64 ≤ 2 ^ exponent := Nat.pow_le_pow_right (by decide) beyond
      _ ≤ base.natAbs ^ exponent := Nat.pow_le_pow_left large exponent
      _ = (base ^ exponent).natAbs := (Int.natAbs_pow base exponent).symm
  rintro ⟨lower, upper⟩
  omega

theorem inRange_small_pow (base : Int) (exponent : Nat) (small : base.natAbs ≤ 1) : InRange (base ^ exponent) := by
  have bound : (base ^ exponent).natAbs ≤ 1 :=
    calc (base ^ exponent).natAbs = base.natAbs ^ exponent := Int.natAbs_pow base exponent
      _ ≤ 1 ^ exponent := Nat.pow_le_pow_left small exponent
      _ = 1 := one_pow exponent
  constructor <;> omega

theorem neg_one_pow_parity (exponent : Nat) :
    (-1 : Int) ^ exponent = if (exponent : Int) % 2 = 0 then 1 else -1 := by
  split
  next even =>
    have even : Even exponent := Nat.even_iff.mpr (by omega)
    exact even.neg_one_pow
  next odd =>
    have odd : Odd exponent := Nat.odd_iff.mpr (by omega)
    exact odd.neg_one_pow

/-- Exponentiation by exponents up to a limit; beyond it only the bases 0, 1 and -1 are not refused. -/
def powUpTo? (limit : Int) (a exponent : Number) : Option Number :=
  if exponent.isNegative then none
  else if a.val = 0 then some (if exponent.isZero then one else zero)
  else if a.val = 1 then some one
  else if a.val = -1 then ofInt? (if exponent.val % 2 = 0 then 1 else -1)
  else if exponent.val ≤ limit then ofInt? (a.val.pow exponent.val.toNat)
  else none

/-- With any limit from 63 on, exponentiation is that of the integers, less negative exponents and results that are no
numbers. -/
theorem powUpTo?_eq (limit : Int) (far : 63 ≤ limit) (a exponent : Number) :
    powUpTo? limit a exponent = if exponent.val < 0 then none else ofInt? (a.val ^ exponent.val.toNat) := by
  unfold powUpTo? isNegative isZero
  by_cases negative : exponent.val < 0
  · simp [negative]
  obtain ⟨count, counted⟩ := Int.eq_ofNat_of_zero_le (Int.not_lt.mp negative)
  rw [decide_eq_false negative, if_neg Bool.false_ne_true, if_neg negative, counted, Int.toNat_natCast]
  split
  next zero =>
    rw [zero]
    cases count with
    | zero => rfl
    | succ count =>
      rw [zero_pow (Nat.succ_ne_zero count)]
      rfl
  next nonzero =>
    split
    next one =>
      rw [one, one_pow]
      rfl
    next notOne =>
      split
      next minus => rw [minus, neg_one_pow_parity]
      next notMinus =>
        split
        next near => rfl
        next beyond =>
          -- The largest exponents are refused unseen, and rightly: with such a base no power is a number.
          have outgrown := not_inRange_pow a.val count (by omega) (by omega)
          exact ((ofInt?_eq_none_iff _).mpr outgrown).symm

theorem pow?_eq (a exponent : Number) :
    a.pow? exponent = if exponent.val < 0 then none else ofInt? (a.val ^ exponent.val.toNat) :=
  powUpTo?_eq 63 (by decide) a exponent

theorem pow?_isSome_iff (a exponent : Number) :
    (a.pow? exponent).isSome ↔ 0 ≤ exponent.val ∧ InRange (a.val ^ exponent.val.toNat) := by
  rw [pow?_eq]
  by_cases negative : exponent.val < 0
  · simp [negative]
  · rw [if_neg negative, ofInt?_isSome_iff]
    simp [Int.not_lt.mp negative]

theorem pow?_val (a exponent power : Number) (found : a.pow? exponent = some power) :
    power.val = a.val ^ exponent.val.toNat := by
  rw [pow?_eq] at found
  split at found
  next => cases found
  next => exact (ofInt?_eq_some_iff _ power).mp found

/-- A power is a number exactly if the exponent is not negative and the integer power is in range, and then it is
that integer. With an exponent of more than 32 bits only the bases 0, 1 and -1 have such a power, so nothing is lost if
such exponents are refused for all others. -/
theorem pow?_exact (a exponent : Number) :
    (∀ power : Number, a.pow? exponent = some power ↔
      0 ≤ exponent.val ∧ InRange (a.val ^ exponent.val.toNat) ∧ power.val = a.val ^ exponent.val.toNat) ∧
    (a.pow? exponent = none ↔ ¬ (0 ≤ exponent.val ∧ InRange (a.val ^ exponent.val.toNat))) ∧
    (2 ^ 32 - 1 < exponent.val → ((a.pow? exponent).isSome ↔ a.val = 0 ∨ a.val = 1 ∨ a.val = -1)) ∧
    a.pow? exponent = powUpTo? (2 ^ 32 - 1) a exponent := by
  refine ⟨fun power => ⟨fun found => ?_, ?_⟩, ?_, fun wide => ?_, ?_⟩
  · have known := (pow?_isSome_iff a exponent).mp (Option.isSome_of_eq_some found)
    exact ⟨known.1, known.2, pow?_val a exponent power found⟩
  · rintro ⟨positive, _, exact⟩
    rw [pow?_eq, if_neg (Int.not_lt.mpr positive), ofInt?_eq_some_iff, exact]
  · rw [← pow?_isSome_iff, Option.not_isSome_iff_eq_none]
  · rw [pow?_isSome_iff]
    constructor
    · rintro ⟨_, within⟩
      by_contra other
      exact not_inRange_pow a.val exponent.val.toNat (by omega) (by omega) within
    · intro small
      exact ⟨by omega, inRange_small_pow a.val exponent.val.toNat (by omega)⟩
  · rw [pow?_eq, powUpTo?_eq (2 ^ 32 - 1) (by decide)]

/-- The last power of -2 is the least number, one exponent more is refused, and -1 has a power of any exponent. -/
theorem pow?_exact_edges :
    let two : Number := ⟨-2, by decide, by decide⟩
    let minus : Number := ⟨-1, by decide, by decide⟩
    two.pow? ⟨63, by decide, by decide⟩ = some .least ∧ two.pow? ⟨64, by decide, by decide⟩ = none ∧
      (2 ^ 32 - 1 < greatest.val ∧ (minus.pow? greatest).isSome) ∧ ¬ (two.pow? greatest).isSome := by
  intro two minus
  have wide : 2 ^ 32 - 1 < greatest.val := by decide
  refine ⟨((pow?_exact two _).1 least).mpr ⟨by decide, ⟨by decide, by decide⟩, by decide⟩, ?_, ⟨wide, ?_⟩, ?_⟩
  · refine (pow?_exact two _).2.1.mpr ?_
    rintro ⟨_, _, upper⟩
    exact absurd upper (by decide)
  · exact ((pow?_exact minus greatest).2.2.1 wide).mpr (.inr (.inr rfl))
  · rw [(pow?_exact two greatest).2.2.1 wide]
    decide

end Number

end TagLang

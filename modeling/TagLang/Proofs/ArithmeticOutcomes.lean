import TagLang.Operation
import TagLang.Proofs.NumberDivision

/-! Outcomes of arithmetic. An operator on numbers gives the integer that it stands for if that is a number, and fails
with an overflow if it is not; where the operator stands for no integer it fails for that reason. Values that are not
all numbers never fail for want of a result. -/

namespace TagLang

open Number

def FailsWith (outcome : Except EvalError Value) (cause : ErrorCause) : Prop :=
  ∃ error, outcome = .error error ∧ error.cause = cause

def Overflows (outcome : Except EvalError Value) : Prop := ∃ operation, FailsWith outcome (.integerOverflow operation)

/-- An outcome that is an integer, or an overflow if the integer is no number. -/
def ExactOrOverflow (n : Int) (outcome : Except EvalError Value) : Prop :=
  (∀ number : Number, number.val = n → outcome = .ok (.number number)) ∧ (¬ InRange n → Overflows outcome)

theorem not_failsWith_ok (value : Value) (cause : ErrorCause) : ¬ FailsWith (.ok value) cause := by
  rintro ⟨error, failed, _⟩
  cases failed

theorem failsWith_of_iff (raised cause : ErrorCause) : FailsWith (.error (.of raised)) cause ↔ raised = cause := by
  constructor
  · rintro ⟨error, failed, rfl⟩
    cases failed
    rfl
  · rintro rfl
    exact ⟨_, rfl, rfl⟩

theorem failsWith_orOverflow_iff (operation : String) (n : Int) (cause : ErrorCause) :
    FailsWith (orOverflow operation (ofInt? n)) cause ↔ ¬ InRange n ∧ cause = .integerOverflow operation := by
  by_cases within : InRange n
  · obtain ⟨number, exact⟩ := exists_of_inRange within
    rw [(ofInt?_eq_some_iff n number).mpr exact]
    exact iff_of_false (not_failsWith_ok _ cause) fun beyond => beyond.1 within
  · rw [(ofInt?_eq_none_iff n).mpr within]
    exact (failsWith_of_iff _ cause).trans ⟨fun same => ⟨within, same.symm⟩, fun same => same.2.symm⟩

theorem orOverflow_exact (operation : String) (n : Int) : ExactOrOverflow n (orOverflow operation (ofInt? n)) := by
  constructor
  · intro number exact
    rw [(ofInt?_eq_some_iff n number).mpr exact]
    rfl
  · intro beyond
    exact ⟨operation, (failsWith_orOverflow_iff operation n _).mpr ⟨beyond, rfl⟩⟩

namespace BinaryOp

def arithmetic : List BinaryOp := [add, sub, mul, div, mod, pow]

/-- The integer that an arithmetic operator stands for on two others. -/
inductive Gives : BinaryOp → Int → Int → Int → Prop
  | add (a b : Int) : Gives add a b (a + b)
  | sub (a b : Int) : Gives sub a b (a - b)
  | mul (a b : Int) : Gives mul a b (a * b)
  | div {a b n : Int} (nonzero : b ≠ 0) (truncated : Truncated a b n) : Gives div a b n
  | mod {a b n : Int} (nonzero : b ≠ 0) (floored : Floored a b n) : Gives mod a b n
  | pow {a b : Int} (nonneg : 0 ≤ b) : Gives pow a b (a ^ b.toNat)

/-- Why an arithmetic operator stands for no integer on two numbers. -/
inductive Lacks : BinaryOp → Number → Number → ErrorCause → Prop
  | div {a b : Number} (zero : b.val = 0) : Lacks div a b .divisionByZero
  | mod {a b : Number} (zero : b.val = 0) : Lacks mod a b .moduloByZero
  | pow {a b : Number} (negative : b.val < 0) : Lacks pow a b (.negativeExponent b)

theorem lacks_iff (op : BinaryOp) (a b : Number) (cause : ErrorCause) : op.Lacks a b cause ↔
    op = div ∧ b.val = 0 ∧ cause = .divisionByZero ∨ op = mod ∧ b.val = 0 ∧ cause = .moduloByZero ∨
      op = pow ∧ b.val < 0 ∧ cause = .negativeExponent b := by
  constructor
  · intro lacks
    cases lacks with
    | div zero => exact .inl ⟨rfl, zero, rfl⟩
    | mod zero => exact .inr (.inl ⟨rfl, zero, rfl⟩)
    | pow negative => exact .inr (.inr ⟨rfl, negative, rfl⟩)
  · rintro (⟨rfl, zero, rfl⟩ | ⟨rfl, zero, rfl⟩ | ⟨rfl, negative, rfl⟩)
    · exact .div zero
    · exact .mod zero
    · exact .pow negative

theorem gives_or_lacks (op : BinaryOp) (member : op ∈ arithmetic) (a b : Number) :
    (∃ n, op.Gives a.val b.val n) ∨ ∃ cause, op.Lacks a b cause := by
  cases op with
  | add => exact .inl ⟨_, .add _ _⟩
  | sub => exact .inl ⟨_, .sub _ _⟩
  | mul => exact .inl ⟨_, .mul _ _⟩
  | div =>
    by_cases zero : b.val = 0
    · exact .inr ⟨_, .div zero⟩
    · exact .inl ⟨_, .div zero (truncated_tdiv _ _ zero)⟩
  | mod =>
    by_cases zero : b.val = 0
    · exact .inr ⟨_, .mod zero⟩
    · exact .inl ⟨_, .mod zero (floored_fmod _ _ zero)⟩
  | pow =>
    by_cases negative : b.val < 0
    · exact .inr ⟨_, .pow negative⟩
    · exact .inl ⟨_, .pow (Int.not_lt.mp negative)⟩
  | _ => exact absurd member (by decide)

/-- Where an operator stands for an integer, its only failure is an overflow. -/
theorem onNumbers_of_gives (op : BinaryOp) (a b : Number) (n : Int) (gives : op.Gives a.val b.val n) :
    ∃ operation, op.onNumbers a b = orOverflow operation (ofInt? n) := by
  cases gives with
  | add | sub | mul => exact ⟨_, rfl⟩
  | div nonzero truncated =>
    rw [onNumbers, if_neg (by simpa [isZero] using nonzero), div?_of_truncated a b n nonzero truncated]
    exact ⟨_, rfl⟩
  | mod nonzero floored =>
    rw [onNumbers, if_neg (by simpa [isZero] using nonzero), mod?_of_floored a b n nonzero floored]
    exact ⟨_, rfl⟩
  | pow nonneg =>
    have negative : ¬ b.val < 0 := Int.not_lt.mpr nonneg
    rw [onNumbers, if_neg (by simpa [isNegative] using negative), pow?_eq, if_neg negative]
    exact ⟨_, rfl⟩

theorem onNumbers_of_lacks (op : BinaryOp) (a b : Number) (cause : ErrorCause) (lacks : op.Lacks a b cause) :
    op.onNumbers a b = .error (.of cause) := by
  cases lacks with
  | div zero => exact if_pos (by simpa [isZero] using zero)
  | mod zero => exact if_pos (by simpa [isZero] using zero)
  | pow negative => exact if_pos (by simpa [isNegative] using negative)

theorem Gives.exactOrOverflow {op : BinaryOp} {a b : Number} {n : Int} (gives : op.Gives a.val b.val n) :
    ExactOrOverflow n (op.apply (.number a) (.number b)) := by
  obtain ⟨operation, outcome⟩ := op.onNumbers_of_gives a b n gives
  rw [apply, outcome]
  exact orOverflow_exact operation n

theorem Lacks.failsWith {op : BinaryOp} {a b : Number} {cause : ErrorCause} (lacks : op.Lacks a b cause) :
    FailsWith (op.apply (.number a) (.number b)) cause := by
  rw [apply, op.onNumbers_of_lacks a b cause lacks]
  exact (failsWith_of_iff cause cause).mpr rfl

/-- Arithmetic fails by an overflow of the integer it stands for, or for want of such an integer. -/
theorem failsWith_cases (op : BinaryOp) (member : op ∈ arithmetic) (a b : Number) (cause : ErrorCause)
    (fails : FailsWith (op.apply (.number a) (.number b)) cause) :
    (∃ n operation, op.Gives a.val b.val n ∧ ¬ InRange n ∧ cause = .integerOverflow operation) ∨
      op.Lacks a b cause := by
  rw [apply] at fails
  rcases op.gives_or_lacks member a b with ⟨n, gives⟩ | ⟨reason, lacks⟩
  · obtain ⟨operation, outcome⟩ := op.onNumbers_of_gives a b n gives
    rw [outcome, failsWith_orOverflow_iff] at fails
    exact .inl ⟨n, operation, gives, fails⟩
  · rw [op.onNumbers_of_lacks a b reason lacks, failsWith_of_iff] at fails
    exact .inr (fails ▸ lacks)

theorem failsWith_iff_lacks (op : BinaryOp) (member : op ∈ arithmetic) (a b : Number) (cause : ErrorCause)
    (other : ∀ operation, cause ≠ .integerOverflow operation) :
    FailsWith (op.apply (.number a) (.number b)) cause ↔ op.Lacks a b cause := by
  refine ⟨fun fails => ?_, Lacks.failsWith⟩
  rcases op.failsWith_cases member a b cause fails with ⟨_, operation, _, _, same⟩ | lacks
  · exact absurd same (other operation)
  · exact lacks

theorem overflows_iff (op : BinaryOp) (member : op ∈ arithmetic) (a b : Number) :
    Overflows (op.apply (.number a) (.number b)) ↔ ∃ n, op.Gives a.val b.val n ∧ ¬ InRange n := by
  constructor
  · rintro ⟨operation, fails⟩
    rcases op.failsWith_cases member a b _ fails with ⟨n, _, gives, beyond, _⟩ | lacks
    · exact ⟨n, gives, beyond⟩
    · cases lacks
  · rintro ⟨n, gives, beyond⟩
    exact gives.exactOrOverflow.2 beyond

theorem overflows_div_iff (a b : Number) :
    Overflows (div.apply (.number a) (.number b)) ↔ a.val = -2 ^ 63 ∧ b.val = -1 := by
  rw [overflows_iff div (by decide)]
  constructor
  · rintro ⟨n, gives, beyond⟩
    cases gives with
    | div nonzero truncated =>
      rw [truncated.inRange_iff nonzero a.inRange_val] at beyond
      exact not_not.mp beyond
  · intro edge
    have nonzero : b.val ≠ 0 := by omega
    have truncated := truncated_tdiv a.val b.val nonzero
    refine ⟨_, .div nonzero truncated, ?_⟩
    rw [truncated.inRange_iff nonzero a.inRange_val]
    exact not_not_intro edge

theorem not_overflows_mod (a b : Number) : ¬ Overflows (mod.apply (.number a) (.number b)) := by
  rw [overflows_iff mod (by decide)]
  rintro ⟨n, gives, beyond⟩
  cases gives with
  | mod nonzero floored => exact beyond (floored.inRange b.inRange_val)

/-- Failures of operators on values that are not two numbers are no domain errors. -/
theorem numbers_of_domain (op : BinaryOp) (left right : Value) (error : EvalError)
    (failed : op.apply left right = .error error) (domain : error.cause.isDomain = true) :
    ∃ a b, left = .number a ∧ right = .number b := by
  unfold apply at failed
  split at failed
  next a b => exact ⟨a, b, rfl, rfl⟩
  next =>
    exfalso
    cases op <;> cases failed <;> cases domain
  next =>
    exfalso
    cases op <;> cases failed <;> cases domain
  next =>
    exfalso
    split at failed
    next => cases op <;> cases failed <;> cases domain
    next =>
      cases failed
      cases domain

end BinaryOp

theorem UnaryOp.number_of_domain (op : UnaryOp) (value : Value) (error : EvalError)
    (failed : op.apply value = .error error) (domain : error.cause.isDomain = true) : ∃ a, value = .number a := by
  unfold apply at failed
  split at failed
  next a => exact ⟨a, rfl⟩
  next => cases failed
  next =>
    cases failed
    cases domain

open BinaryOp in
/-- Sums, differences, products and negatives are exact or overflow. Quotients, remainders and powers fail for a zero
divisor or a negative exponent, each with its own error, and overflow if the integer they stand for is no number, which
is so of one quotient and of no remainder. No other values have such errors. -/
theorem arithmetic_exact_or_fails (a b : Number) :
    (ExactOrOverflow (a.val + b.val) (add.apply (.number a) (.number b)) ∧
      ExactOrOverflow (a.val - b.val) (sub.apply (.number a) (.number b)) ∧
      ExactOrOverflow (a.val * b.val) (mul.apply (.number a) (.number b)) ∧
      ExactOrOverflow (-a.val) (UnaryOp.neg.apply (.number a))) ∧
    (∀ op ∈ arithmetic,
      (FailsWith (op.apply (.number a) (.number b)) .divisionByZero ↔ op = div ∧ b.val = 0) ∧
      (FailsWith (op.apply (.number a) (.number b)) .moduloByZero ↔ op = mod ∧ b.val = 0) ∧
      (∀ exponent, FailsWith (op.apply (.number a) (.number b)) (.negativeExponent exponent) ↔
        op = pow ∧ b.val < 0 ∧ exponent = b) ∧
      (Overflows (op.apply (.number a) (.number b)) ↔ ∃ n, op.Gives a.val b.val n ∧ ¬ InRange n) ∧
      ∀ n, op.Gives a.val b.val n → ExactOrOverflow n (op.apply (.number a) (.number b))) ∧
    ((Overflows (div.apply (.number a) (.number b)) ↔ a.val = -2 ^ 63 ∧ b.val = -1) ∧
      ¬ Overflows (mod.apply (.number a) (.number b))) ∧
    (∀ (op : BinaryOp) left right error, op.apply left right = .error error → error.cause.isDomain = true →
      ∃ a b, left = .number a ∧ right = .number b) ∧
    ∀ (op : UnaryOp) value error, op.apply value = .error error → error.cause.isDomain = true →
      ∃ a, value = .number a := by
  refine ⟨⟨?_, ?_, ?_, ?_⟩, ?_, ⟨overflows_div_iff a b, not_overflows_mod a b⟩, numbers_of_domain,
    UnaryOp.number_of_domain⟩
  · exact (Gives.add a.val b.val).exactOrOverflow
  · exact (Gives.sub a.val b.val).exactOrOverflow
  · exact (Gives.mul a.val b.val).exactOrOverflow
  · exact orOverflow_exact "negation" (-a.val)
  · intro op member
    refine ⟨?_, ?_, ?_, op.overflows_iff member a b, fun n => Gives.exactOrOverflow⟩
    · rw [op.failsWith_iff_lacks member a b _ (by simp), lacks_iff]
      simp
    · rw [op.failsWith_iff_lacks member a b _ (by simp), lacks_iff]
      simp
    · intro exponent
      rw [op.failsWith_iff_lacks member a b _ (by simp), lacks_iff]
      simp

open BinaryOp in
/-- The least number by -1 and -1 to the power -1, a remainder by zero, the last power of -2, and sums and negatives
beyond the numbers. -/
theorem arithmetic_exact_or_fails_edges :
    let minus : Number := ⟨-1, by decide, by decide⟩
    let two : Number := ⟨-2, by decide, by decide⟩
    let last : Number := ⟨63, by decide, by decide⟩
    Overflows (div.apply (.number .least) (.number minus)) ∧
      FailsWith (pow.apply (.number minus) (.number minus)) (.negativeExponent minus) ∧
      FailsWith (mod.apply (.number .least) (.number .zero)) .moduloByZero ∧
      pow.apply (.number two) (.number last) = .ok (.number .least) ∧
      (add.apply (.number .greatest) (.number .one) = .error (.of (.integerOverflow "addition")) ∧
        ∃ a b, Value.number .greatest = .number a ∧ Value.number .one = .number b) ∧
      UnaryOp.neg.apply (.number .least) = .error (.of (.integerOverflow "negation")) ∧
        ∃ a, Value.number .least = .number a := by
  intro minus two last
  obtain ⟨_, _, ⟨quotient, _⟩, binary, unary⟩ := arithmetic_exact_or_fails .least minus
  obtain ⟨_, powers, _⟩ := arithmetic_exact_or_fails minus minus
  obtain ⟨_, remainders, _⟩ := arithmetic_exact_or_fails .least .zero
  obtain ⟨_, exact, _⟩ := arithmetic_exact_or_fails two last
  refine ⟨quotient.mpr ⟨rfl, rfl⟩, ?_, ?_, ?_, ?_, ?_⟩
  · exact ((powers pow (by decide)).2.2.1 minus).mpr ⟨rfl, by decide, rfl⟩
  · exact (remainders mod (by decide)).2.1.mpr ⟨rfl, rfl⟩
  · exact ((exact pow (by decide)).2.2.2.2 _ (.pow (by decide))).1 .least (by decide)
  · exact ⟨rfl, binary add _ _ (.of (.integerOverflow "addition")) rfl rfl⟩
  · exact ⟨rfl, unary .neg _ (.of (.integerOverflow "negation")) rfl rfl⟩

end TagLang

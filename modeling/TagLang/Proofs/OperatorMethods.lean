import TagLang.Proofs.MethodResolution

/-! Operators beside the methods they stand for. The table has a row for an operator's method on just the families on
which the operator is defined, and the method does there what the operator does. -/

namespace TagLang

namespace BinaryOp

/-- Whether an operator with a method is defined on a family. -/
def isDefinedOn : BinaryOp → Family → Bool
  | eq, _ | notEq, _ => true
  | concat, .text => true
  | op, .number => ofNumbers.contains op
  | _, _ => false

theorem mem_withMethod (op : BinaryOp) (name : String) (lowers : op.method? = some name) : op ∈ withMethod := by
  cases op with
  | and | or => cases lowers
  | _ => decide

theorem isDefinedOn_rows : ∀ op ∈ withMethod, ∀ row ∈ Method.table, op.method? = some row.name →
    row.params = [.receiverFamily] ∧ op.isDefinedOn row.receiver = true := by decide

theorem isDefinedOn_listed : ∀ op ∈ withMethod, ∀ family : Family, op.isDefinedOn family = true →
    ∃ row ∈ Method.table, row.receiver = family ∧ op.method? = some row.name := by
  intro op member family
  revert op
  cases family <;> decide

theorem apply_eq_equals (left right : Value) (family : Family) (leftIn : left.family? = some family)
    (rightIn : right.family? = some family) :
    eq.apply left right = .ok (.bool (left.equals right)) ∧
      notEq.apply left right = .ok (.bool (!left.equals right)) := by
  unfold apply
  split
  next => exact ⟨rfl, rfl⟩
  next a b => cases a <;> cases b <;> exact ⟨rfl, rfl⟩
  next => exact ⟨rfl, rfl⟩
  next => simp [leftIn, rightIn, onFamily]

/-- On a family where an operator is defined, its method does what the operator does. -/
theorem dispatch_operator {m : Type → Type} [Monad m] (host : Host m) (op : BinaryOp) (name : String)
    (stands : op.method? = some name) (left right : Value) (family : Family) (leftIn : left.family? = some family)
    (rightIn : right.family? = some family) (defined : op.isDefinedOn family = true) :
    Method.dispatch host left name [right] = ExceptT.mk (pure (op.apply left right)) := by
  obtain ⟨equal, unequal⟩ := apply_eq_equals left right family leftIn rightIn
  unfold isDefinedOn at defined
  split at defined
  next =>
    obtain rfl := Option.some.inj stands
    rw [equal]
    rfl
  next =>
    obtain rfl := Option.some.inj stands
    rw [unequal]
    rfl
  next =>
    obtain rfl := Option.some.inj stands
    obtain ⟨a, rfl⟩ := left.of_family? .text leftIn
    obtain ⟨b, rfl⟩ := right.of_family? .text rightIn
    rfl
  next =>
    obtain ⟨a, rfl⟩ := left.of_family? .number leftIn
    obtain ⟨b, rfl⟩ := right.of_family? .number rightIn
    exact Method.dispatch_operate host name op (List.contains_iff_mem.mp defined) stands a b
  next => cases defined

/-- Where an operator is not defined it fails, and not for want of a result. -/
theorem apply_undefined (op : BinaryOp) (member : op ∈ withMethod) (left right : Value)
    (undefined : ∀ family, left.family? = some family → right.family? = some family → op.isDefinedOn family = false) :
    ∃ error, op.apply left right = .error error ∧ error.cause.isDomain = false := by
  unfold apply
  split
  next a b =>
    have none := undefined .number rfl rfl
    cases op with
    | concat | and | or => exact ⟨_, rfl, rfl⟩
    | _ => cases none
  next a b =>
    have none := undefined .tag rfl rfl
    cases op with
    | eq | notEq => cases none
    | and | or => exact absurd member (by decide)
    | _ => exact ⟨_, rfl, rfl⟩
  next a b =>
    have none := undefined .text rfl rfl
    cases op with
    | concat | eq | notEq => cases none
    | _ => exact ⟨_, rfl, rfl⟩
  next =>
    split
    next together =>
      obtain ⟨known, same⟩ := (Bool.and_eq_true _ _).mp together
      obtain ⟨family, leftIn⟩ := Option.isSome_iff_exists.mp known
      have rightIn : right.family? = some family := (beq_iff_eq.mp same).symm.trans leftIn
      have none := undefined family leftIn rightIn
      cases op with
      | eq | notEq => cases none
      | _ => exact ⟨_, rfl, rfl⟩
    next => exact ⟨_, rfl, rfl⟩

end BinaryOp

namespace Method

/-- The method of an operator is found for two values of a family on which the operator is defined, and refused for
all others. -/
theorem resolve_operator (op : BinaryOp) (name : String) (lowers : op.method? = some name) (left right : Value) :
    (∃ row family, resolve left name [right] = .ok row ∧ left.family? = some family ∧ right.family? = some family ∧
      op.isDefinedOn family = true) ∨
    ∃ error, resolve left name [right] = .error error ∧ error.cause.Refusal ∧
      ∀ family, left.family? = some family → right.family? = some family → op.isDefinedOn family = false := by
  have member := op.mem_withMethod name lowers
  have rows (row : Method) (isFor : row.IsFor left name) :
      row.params = [.receiverFamily] ∧ op.isDefinedOn row.receiver = true :=
    BinaryOp.isDefinedOn_rows op member row isFor.1 (isFor.2.2 ▸ lowers)
  have resolution := resolve_resolution left name [right]
  generalize resolve left name [right] = result at resolution ⊢
  cases resolution with
  | undefined unanswered =>
    refine .inr ⟨_, rfl, .undefinedMethod _ _, ?_⟩
    intro family leftIn _
    by_contra defined
    have listing := BinaryOp.isDefinedOn_listed op member family (Bool.of_not_eq_false defined)
    obtain ⟨row, listed, received, named⟩ := listing
    exact unanswered row ⟨listed, received ▸ leftIn, Option.some.inj (named.symm.trans lowers)⟩
  | arity row isFor counts =>
    have one : row.arity = 1 := congrArg List.length (rows row isFor).1
    exact absurd one (counts row isFor)
  | rejected row isFor count position param arg first =>
    refine .inr ⟨_, rfl, .typeMismatch _ _, ?_⟩
    intro family leftIn rightIn
    exfalso
    refine ((row.fits_iff_forall₂ left [right]).mpr ?_).2 position param arg first.1
    simp [(rows row isFor).1, ParamSpec.Fits, leftIn, rightIn]
  | accepted row isFor count accepts =>
    have fits := (row.fits_iff_forall₂ left [right]).mp ⟨count, accepts⟩
    obtain ⟨params, defined⟩ := rows row isFor
    have same : right.family? = left.family? := by simpa [params, ParamSpec.Fits] using fits
    exact .inl ⟨row, row.receiver, rfl, isFor.2.1, same.trans isFor.2.1, defined⟩

end Method

/-- An operator and its method give the same values and the same domain errors, whoever calls the method, and on
functions both always fail. -/
theorem BinaryOp.apply_agrees {m : Type → Type} [Monad m] [LawfulMonad m] (host : Host m) (op : BinaryOp)
    (name : String) (lowers : op.method? = some name) (left right : Value) :
    ∃ outcome, left.callMethod host name [right] = ExceptT.mk (pure outcome) ∧
      (∀ value, op.apply left right = .ok value ↔ outcome = .ok value) ∧
      (∀ error : EvalError, error.cause.isDomain = true →
        (op.apply left right = .error error ↔ outcome = .error error)) ∧
      ((∃ closure, left = .function closure ∨ right = .function closure) →
        (∃ error, op.apply left right = .error error) ∧ ∃ error, outcome = .error error) := by
  rcases Method.resolve_operator op name lowers left right with
    ⟨row, family, resolved, leftIn, rightIn, defined⟩ | ⟨error, refused, refusal, undefined⟩
  · have performed := op.dispatch_operator host name lowers left right family leftIn rightIn defined
    have called := left.callMethod_of_ok host name [right] row resolved
    refine ⟨op.apply left right, called.trans performed, fun _ => Iff.rfl, fun _ _ => Iff.rfl, ?_⟩
    rintro ⟨closure, rfl | rfl⟩
    · cases leftIn
    · cases rightIn
  · obtain ⟨failure, failed, plain⟩ := op.apply_undefined (op.mem_withMethod name lowers) left right undefined
    refine ⟨.error error, left.callMethod_of_error host name [right] error refused, ?_, ?_, ?_⟩
    · intro value
      simp [failed]
    · intro other domain
      rw [failed]
      constructor
      · rintro ⟨⟩
        simp [plain] at domain
      · rintro ⟨⟩
        simp [refusal.not_domain] at domain
    · intro _
      exact ⟨⟨failure, failed⟩, error, rfl⟩

/-- `1 / 0`, `true != some(true)`, and a function compared with itself. -/
theorem BinaryOp.apply_agrees_mixed :
    let host : Host Id := ⟨fun _ => .ok .empty, fun _ _ => pure .none⟩
    let func : Value := .function ⟨.empty, [], ⟨0⟩, .empty, ⟨0, .empty⟩, 0⟩
    (∃ outcome, (Value.number .one).callMethod host "divide" [.number .zero] = ExceptT.mk (pure outcome) ∧
      div.apply (.number .one) (.number .zero) = .error (.of .divisionByZero) ∧
      outcome = .error (.of .divisionByZero)) ∧
    (∃ outcome, (Value.bool true).callMethod host "notEquals" [.some (.bool true)] = ExceptT.mk (pure outcome) ∧
      notEq.apply (.bool true) (.some (.bool true)) = .ok (.bool true) ∧ outcome = .ok (.bool true)) ∧
    ∃ outcome, func.callMethod host "equals" [func] = ExceptT.mk (pure outcome) ∧
      (∃ error, eq.apply func func = .error error) ∧ ∃ error, outcome = .error error := by
  intro host func
  refine ⟨?_, ?_, ?_⟩
  · obtain ⟨outcome, called, _, errors, _⟩ := apply_agrees host div "divide" rfl (.number .one) (.number .zero)
    exact ⟨outcome, called, rfl, (errors (.of .divisionByZero) rfl).mp rfl⟩
  · obtain ⟨outcome, called, values, _⟩ := apply_agrees host notEq "notEquals" rfl (.bool true) (.some (.bool true))
    exact ⟨outcome, called, rfl, (values (.bool true)).mp rfl⟩
  · obtain ⟨outcome, called, _, _, functions⟩ := apply_agrees host eq "equals" rfl func func
    exact ⟨outcome, called, functions ⟨_, .inl rfl⟩⟩

end TagLang

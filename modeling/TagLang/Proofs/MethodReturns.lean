import TagLang.Proofs.TextRoundTrip

/-! What library calls return. The table's column of returns is kept by every method: a call that its row accepts gives
a value as declared there, and it fails only by arithmetic without a result, by a field name that is no string or for
which no name is left, or through a callback. -/

namespace TagLang

section ConcludesFrom

variable {m : Type → Type} [Monad m] {α : Type} {condition : Except EvalError α → Prop}
  {computation : ExceptT EvalError (StateT Interner m) α} {interner : Interner}

variable [LawfulMonad m]

end ConcludesFrom

namespace ReturnSpec

/-- The results that a method may give on a receiver if it declares them so. -/
def Fits (receiver result : Value) : ReturnSpec → Prop
  | receiverFamily => result.family? = receiver.family? ∧
      ∀ record, receiver = .record record → ∃ same, result = .record same ∧ same.typeName = record.typeName
  | number => ∃ content, result = .number content
  | bool => ∃ content, result = .bool content
  | optionCodePoint => result = .none ∨
      ∃ content : Number, result = .some (.number content) ∧ 0 ≤ content.val ∧ content.val ≤ 0x10ffff
  | optionElement => result = .none ∨ ∃ items, receiver = .list items ∧ ∃ element ∈ items, result = .some element
  | resultSequence => result.discriminant? = some (.named .errorTag) ∨
      ∃ items contents, receiver = .list items ∧ result = .ok (.list contents) ∧ contents.length = items.length

end ReturnSpec

namespace Value

end Value

section Walk

variable {m : Type → Type} [Monad m] [LawfulMonad m] {answers : Except EvalError Value → Prop}

end Walk

namespace ReturnSpec

end ReturnSpec

namespace Method

end Method

section Calls

variable {m : Type → Type} [Monad m] [LawfulMonad m]
  (call : Value → List Value → ExceptT EvalError (StateT Interner m) Value) (receiver : Value) (name : String)
  (args : List Value) (answers : Except EvalError Value → Prop) (interner : Interner)

end Calls

end TagLang

import TagLang.Value.Equality

/-! What operators do to values. Arithmetic is exact: a result out of range is an error, never a wrapped
number. The logical operators are given here on two booleans. -/

namespace TagLang

/-- The outcome of arithmetic whose only failure is a result out of range. -/
def orOverflow (operation : String) (result : Option Number) : Except EvalError Value :=
  match result with
  | some number => .ok (.number number)
  | none => .error (.of (.integerOverflow operation))

namespace BinaryOp

def onNumbers (op : BinaryOp) (a b : Number) : Except EvalError Value :=
  match op with
  | add => orOverflow "addition" (a.add? b)
  | sub => orOverflow "subtraction" (a.sub? b)
  | mul => orOverflow "multiplication" (a.mul? b)
  | div => if b.isZero then .error (.of .divisionByZero) else orOverflow "division" (a.div? b)
  | mod => if b.isZero then .error (.of .moduloByZero) else orOverflow "modulo" (a.mod? b)
  | pow =>
    if b.isNegative then .error (.of (.negativeExponent b)) else orOverflow "exponentiation" (a.pow? b)
  | eq => .ok (.bool (a == b))
  | notEq => .ok (.bool (a != b))
  | lt => .ok (.bool (a < b))
  | ltEq => .ok (.bool (a ≤ b))
  | gt => .ok (.bool (b < a))
  | gtEq => .ok (.bool (b ≤ a))
  | concat | and | or => .error (.of (.invalidBinaryOp "Number" op))

def onBools (op : BinaryOp) (a b : Bool) : Except EvalError Value :=
  match op with
  | and => .ok (.bool (a && b))
  | or => .ok (.bool (a || b))
  | eq => .ok (.bool (a == b))
  | notEq => .ok (.bool (a != b))
  | _ => .error (.of (.invalidBinaryOp "Bool" op))

def onTexts (op : BinaryOp) (a b : Text) : Except EvalError Value :=
  match op with
  | concat => .ok (.text (a.append b))
  | eq => .ok (.bool (a == b))
  | notEq => .ok (.bool (a != b))
  | _ => .error (.of (.invalidBinaryOp "Text" op))

/-- Two values of one family can always be compared; nothing else is defined on all families. -/
def onFamily (op : BinaryOp) (left right : Value) : Except EvalError Value :=
  match op with
  | eq => .ok (.bool (left.equals right))
  | notEq => .ok (.bool (!left.equals right))
  | _ => .error (.of (.invalidBinaryOp left.typeName op))

def apply (op : BinaryOp) (left right : Value) : Except EvalError Value :=
  match left, right with
  | .number a, .number b => op.onNumbers a b
  | .bool a, .bool b => op.onBools a b
  | .text a, .text b => op.onTexts a b
  | left, right =>
    if left.family?.isSome && left.family? == right.family? then op.onFamily left right
    else .error (.of (.binaryTypeMismatch left.typeName right.typeName))

end BinaryOp

namespace UnaryOp

def apply (op : UnaryOp) (value : Value) : Except EvalError Value :=
  match op, value with
  | neg, .number a => orOverflow "negation" a.neg?
  | not, .bool b => .ok (.bool !b)
  | op, value => .error (.of (.invalidUnaryOp value.typeName op))

end UnaryOp

end TagLang

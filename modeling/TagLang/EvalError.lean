import TagLang.Number
import TagLang.Operator
import TagLang.Span

/-! Evaluation errors: a cause, its wording, the place where it arose, and notes. An absent element and an
`error` tag are values, not errors. -/

namespace TagLang

inductive ErrorCause where
  | divisionByZero
  | moduloByZero
  | integerOverflow (operation : String)
  | negativeExponent (exponent : Number)
  | typeMismatch (expected got : String)
  | invalidBinaryOp (typeName : String) (op : BinaryOp)
  | binaryTypeMismatch (left right : String)
  | invalidUnaryOp (typeName : String) (op : UnaryOp)
  | undefinedVariable (name : String)
  | undefinedField (field : String)
  | undefinedMethod (method typeName : String)
  | unknownVariant (enumName variant : String)
  | arityMismatch (name : String) (expected got : Nat)
  | notCallable (typeName : String)
  | recursionLimit (limit : Nat)
  | budgetExceeded (budget : Nat)
  | nonExhaustiveMatch (discriminant : String)
  | custom (message : String)
deriving DecidableEq

namespace ErrorCause

/-- Domain errors are arithmetic without a representable result. -/
def isDomain : ErrorCause → Bool
  | divisionByZero | moduloByZero | integerOverflow _ | negativeExponent _ => true
  | _ => false

def message : ErrorCause → String
  | divisionByZero => "division by zero"
  | moduloByZero => "modulo by zero"
  | integerOverflow operation => "integer overflow in " ++ operation
  | negativeExponent exponent => "negative exponent " ++ exponent.text ++ " has no integer result"
  | typeMismatch expected got => "type mismatch: expected " ++ expected ++ ", got " ++ got
  | invalidBinaryOp typeName op => "operator `" ++ op.symbol ++ "` cannot be applied to " ++ typeName
  | binaryTypeMismatch left right => "cannot apply operator to `" ++ left ++ "` and `" ++ right ++ "`"
  | invalidUnaryOp typeName op => "operator `" ++ op.symbol ++ "` cannot be applied to " ++ typeName
  | undefinedVariable name => "undefined variable: " ++ name
  | undefinedField field => "no field " ++ field ++ " on record"
  | undefinedMethod method typeName => "no method '" ++ method ++ "' on " ++ typeName
  | unknownVariant enumName variant => "enum " ++ enumName ++ " has no variant " ++ variant
  | arityMismatch name expected got =>
    (if name.isEmpty then "expected " else name ++ " expects ") ++ toString expected ++
      (if expected = 1 then " argument, got " else " arguments, got ") ++ toString got
  | notCallable typeName => typeName ++ " is not callable"
  | recursionLimit limit => "maximum recursion depth exceeded (limit: " ++ toString limit ++ ")"
  | budgetExceeded budget => "evaluation budget of " ++ toString budget ++ " calls exceeded"
  | nonExhaustiveMatch discriminant => "non-exhaustive match: no arm for `" ++ discriminant ++ "`"
  | custom message => message

end ErrorCause

structure ErrorNote where
  message : String
  span : Option Span
deriving DecidableEq

structure EvalError where
  cause : ErrorCause
  message : String
  span : Option Span
  notes : List ErrorNote
deriving DecidableEq

namespace EvalError

/-- The error of a cause, in the cause's own words. -/
def of (cause : ErrorCause) : EvalError := ⟨cause, cause.message, none, []⟩

/-- An error that is nothing but a message. -/
def new (message : String) : EvalError := ⟨.custom message, message, none, []⟩

/-- Locates an error that has no place yet, so that an error keeps the innermost place it was given. -/
def withSpan (error : EvalError) (span : Span) : EvalError := { error with span := error.span.or (some span) }

def withNote (error : EvalError) (note : ErrorNote) : EvalError := { error with notes := error.notes ++ [note] }

def display (error : EvalError) : String :=
  match error.span with
  | some span => error.message ++ " at " ++ span.text
  | none => error.message

end EvalError

end TagLang

/-! The operator table: symbol, precedence, grouping and the library method an operator stands for. -/

namespace TagLang

inductive Associativity where
  | left
  | right
deriving DecidableEq, Repr

inductive BinaryOp where
  | add | sub | mul | div | mod | pow
  | concat
  | eq | notEq | lt | ltEq | gt | gtEq
  | and | or
deriving DecidableEq, Repr

namespace BinaryOp

def symbol : BinaryOp → String
  | add => "+"
  | sub => "-"
  | mul => "*"
  | div => "/"
  | mod => "%"
  | pow => "**"
  | concat => "++"
  | eq => "=="
  | notEq => "!="
  | lt => "<"
  | ltEq => "<="
  | gt => ">"
  | gtEq => ">="
  | and => "and"
  | or => "or"

/-- The lower the level, the tighter the operator binds. -/
def precedence : BinaryOp → Nat
  | pow => 2
  | mul | div | mod => 3
  | add | sub | concat => 4
  | lt | ltEq | gt | gtEq => 7
  | eq | notEq => 8
  | and => 12
  | or => 13

def associativity : BinaryOp → Associativity
  | pow => .right
  | _ => .left

/-- Whether the right operand is evaluated only when the left one leaves the result open. -/
def isShortCircuit : BinaryOp → Bool
  | and | or => true
  | _ => false

/-- The library method that does the operator's work; the logical operators have none. -/
def method? : BinaryOp → Option String
  | add => some "add"
  | sub => some "subtract"
  | mul => some "multiply"
  | div => some "divide"
  | mod => some "modulo"
  | pow => some "power"
  | concat => some "concat"
  | eq => some "equals"
  | notEq => some "notEquals"
  | lt => some "lessThan"
  | ltEq => some "lessThanOrEquals"
  | gt => some "greaterThan"
  | gtEq => some "greaterThanOrEquals"
  | and | or => none

def withMethod : List BinaryOp := [add, sub, mul, div, mod, pow, concat, eq, notEq, lt, ltEq, gt, gtEq]

def ofMethod? (method : String) : Option BinaryOp := withMethod.find? fun op => op.method? == some method

end BinaryOp

inductive UnaryOp where
  | neg
  | not
deriving DecidableEq, Repr

namespace UnaryOp

def symbol : UnaryOp → String
  | neg => "-"
  | not => "not"

/-- Unary operators bind tighter than every binary one. -/
def precedence : UnaryOp → Nat
  | neg | not => 1

end UnaryOp

end TagLang

import TagLang.Arena

/-! Operator chains. `a op₁ b op₂ c …` is grouped into the one tree that the operator table allows, and
the tree's nodes are then allocated in an arena. -/

namespace TagLang

inductive OpTree where
  | leaf (operand : ExprId)
  | node (op : BinaryOp) (left right : OpTree)
deriving DecidableEq

namespace BinaryOp

/-- Whether `next`, standing to the right of `op` in a chain, takes the operand between them. -/
def yieldsTo (op next : BinaryOp) : Bool :=
  decide (next.precedence < op.precedence) ||
    (next.precedence == op.precedence && next.associativity == .right)

end BinaryOp

namespace OpTree

/-- Extends a grouping by one operator and its right operand: the operator goes down the right edge as
long as the operators there yield to it. -/
def extend : OpTree → BinaryOp → ExprId → OpTree
  | leaf a, next, operand => node next (leaf a) (leaf operand)
  | node op left right, next, operand =>
    if op.yieldsTo next then node op left (right.extend next operand)
    else node next (node op left right) (leaf operand)

def ofChain (first : ExprId) (rest : List (BinaryOp × ExprId)) : OpTree :=
  rest.foldl (fun tree (op, operand) => tree.extend op operand) (leaf first)

def operands : OpTree → List ExprId
  | leaf operand => [operand]
  | node _ left right => left.operands ++ right.operands

def operators : OpTree → List BinaryOp
  | leaf _ => []
  | node op left right => left.operators ++ op :: right.operators

/-- Allocates the nodes of a tree, children first. A node spans its two children, which must be in the
arena when the node is made. -/
def alloc? : OpTree → Arena → Option (ExprId × Arena)
  | leaf operand, arena => some (operand, arena)
  | node op left right, arena => do
    let (leftId, arena) ← left.alloc? arena
    let (rightId, arena) ← right.alloc? arena
    let leftExpr ← arena.expr? leftId
    let rightExpr ← arena.expr? rightId
    return arena.alloc ⟨.binary op leftId rightId, leftExpr.span.merge rightExpr.span⟩

end OpTree

inductive ChainError where
  | shape (operands operators : Nat)
  | operandOutOfRange
deriving DecidableEq, Repr

namespace ChainError

def message : ChainError → String
  | shape operands operators =>
    "operator chain has " ++ toString operands ++ " operands for " ++ toString operators ++ " operators"
  | operandOutOfRange => "operand outside the arena"

end ChainError

namespace Arena

/-- Allocates the grouping of `operands[0] ops[0] operands[1] …` and gives its root, with the arena that is
left. There must be one operand more than operators. -/
def foldChain (arena : Arena) (operands : List ExprId) (ops : List BinaryOp) :
    Except ChainError ExprId × Arena :=
  match operands with
  | [] => (.error (.shape 0 ops.length), arena)
  | first :: rest =>
    if rest.length = ops.length then
      match (OpTree.ofChain first (ops.zip rest)).alloc? arena with
      | some (root, grown) => (.ok root, grown)
      | none => (.error .operandOutOfRange, arena)
    else (.error (.shape operands.length ops.length), arena)

end Arena

end TagLang

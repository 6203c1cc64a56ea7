import TagLang.EnumLayout
import TagLang.ExprId
import TagLang.Number
import TagLang.Operator
import TagLang.Span

/-! Expressions as an arena stores them: children are ids, and lists of children are runs of the
arena's side tables. -/

namespace TagLang

inductive ExprKind where
  | int (value : Number)
  | text (content : Name)
  | ident (name : Name)
  | tag (name : Name) (payload : TableRange)
  | variant (enumId : EnumId) (variant : Name) (payload : TableRange)
  | binary (op : BinaryOp) (left right : ExprId)
  | unary (op : UnaryOp) (operand : ExprId)
  | ifThen (cond thenBranch : ExprId) (elseBranch : Option ExprId)
  | when (scrutinee : ExprId) (arms : TableRange)
  | list (items : TableRange)
  | record (typeName : Option Name) (fields : TableRange)
  | update (base : ExprId) (fields : TableRange)
  | field (receiver : ExprId) (name : Name)
  | method (receiver : ExprId) (name : Name) (args : TableRange)
  | call (func : ExprId) (args : TableRange)
  | lambda (name : Name) (params : TableRange) (body : ExprId)
  | letIn (name : Name) (init body : ExprId)
deriving DecidableEq

structure Expr where
  kind : ExprKind
  span : Span
deriving DecidableEq

structure FieldInit where
  name : Name
  value : ExprId
deriving DecidableEq, Repr

/-- A tag pattern binds leading payload values to a run of the name table. -/
inductive Pattern where
  | tag (name : Name) (bindings : TableRange)
  | default
deriving DecidableEq, Repr

structure Arm where
  pattern : Pattern
  body : ExprId
deriving DecidableEq, Repr

end TagLang

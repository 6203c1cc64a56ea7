import TagLang.Arena

/-! Nodes: expressions with their lists spelled out. Inserting a node allocates its lists and then its
expression, and reading an expression back gives the node. -/

namespace TagLang

inductive NodeArm where
  | tag (name : Name) (bindings : List Name) (body : ExprId)
  | default (body : ExprId)
deriving DecidableEq

inductive Node where
  | int (value : Number)
  | text (content : Name)
  | ident (name : Name)
  | tag (name : Name) (payload : List ExprId)
  | variant (enumId : EnumId) (variant : Name) (payload : List ExprId)
  | binary (op : BinaryOp) (left right : ExprId)
  | unary (op : UnaryOp) (operand : ExprId)
  | ifThen (cond thenBranch : ExprId) (elseBranch : Option ExprId)
  | when (scrutinee : ExprId) (arms : List NodeArm)
  | list (items : List ExprId)
  | record (typeName : Option Name) (fields : List FieldInit)
  | update (base : ExprId) (fields : List FieldInit)
  | field (receiver : ExprId) (name : Name)
  | method (receiver : ExprId) (name : Name) (args : List ExprId)
  | call (func : ExprId) (args : List ExprId)
  | lambda (name : Name) (params : List Name) (body : ExprId)
  | letIn (name : Name) (init body : ExprId)
deriving DecidableEq

namespace Arena

def insertArm (arena : Arena) : NodeArm → Arm × Arena
  | .tag name bindings body =>
    let (range, arena) := arena.allocNames bindings
    (⟨.tag name range, body⟩, arena)
  | .default body => (⟨.default, body⟩, arena)

/-- The arms with their names in the name table, arm by arm. -/
def insertArms (arena : Arena) : List NodeArm → List Arm × Arena
  | [] => ([], arena)
  | arm :: rest =>
    let (arm, arena) := arena.insertArm arm
    let (rest, arena) := arena.insertArms rest
    (arm :: rest, arena)

/-- The stored form of a node whose lists are now in the side tables. -/
def insertLists (arena : Arena) : Node → ExprKind × Arena
  | .int value => (.int value, arena)
  | .text content => (.text content, arena)
  | .ident name => (.ident name, arena)
  | .tag name payload =>
    let (payload, arena) := arena.allocExprList payload
    (.tag name payload, arena)
  | .variant enumId variant payload =>
    let (payload, arena) := arena.allocExprList payload
    (.variant enumId variant payload, arena)
  | .binary op left right => (.binary op left right, arena)
  | .unary op operand => (.unary op operand, arena)
  | .ifThen cond thenBranch elseBranch => (.ifThen cond thenBranch elseBranch, arena)
  | .when scrutinee arms =>
    let (arms, arena) := arena.insertArms arms
    let (arms, arena) := arena.allocArms arms
    (.when scrutinee arms, arena)
  | .list items =>
    let (items, arena) := arena.allocExprList items
    (.list items, arena)
  | .record typeName fields =>
    let (fields, arena) := arena.allocFields fields
    (.record typeName fields, arena)
  | .update base fields =>
    let (fields, arena) := arena.allocFields fields
    (.update base fields, arena)
  | .field receiver name => (.field receiver name, arena)
  | .method receiver name args =>
    let (args, arena) := arena.allocExprList args
    (.method receiver name args, arena)
  | .call func args =>
    let (args, arena) := arena.allocExprList args
    (.call func args, arena)
  | .lambda name params body =>
    let (params, arena) := arena.allocNames params
    (.lambda name params body, arena)
  | .letIn name init body => (.letIn name init body, arena)

def insert (arena : Arena) (node : Node) (span : Span) : ExprId × Arena :=
  let (kind, arena) := arena.insertLists node
  arena.alloc ⟨kind, span⟩

def nodeArm? (arena : Arena) (arm : Arm) : Option NodeArm :=
  match arm.pattern with
  | .tag name range => (arena.names? range).map fun names => .tag name names arm.body
  | .default => some (.default arm.body)

def nodeArms? (arena : Arena) (range : TableRange) : Option (List NodeArm) := do
  (← arena.arms? range).mapM arena.nodeArm?

/-- The node of a stored expression, if its lists lie in the side tables. -/
def nodeOf? (arena : Arena) : ExprKind → Option Node
  | .int value => some (.int value)
  | .text content => some (.text content)
  | .ident name => some (.ident name)
  | .tag name payload => return .tag name (← arena.exprList? payload)
  | .variant enumId variant payload => return .variant enumId variant (← arena.exprList? payload)
  | .binary op left right => some (.binary op left right)
  | .unary op operand => some (.unary op operand)
  | .ifThen cond thenBranch elseBranch => some (.ifThen cond thenBranch elseBranch)
  | .when scrutinee arms => return .when scrutinee (← arena.nodeArms? arms)
  | .list items => return .list (← arena.exprList? items)
  | .record typeName fields => return .record typeName (← arena.fields? fields)
  | .update base fields => return .update base (← arena.fields? fields)
  | .field receiver name => some (.field receiver name)
  | .method receiver name args => return .method receiver name (← arena.exprList? args)
  | .call func args => return .call func (← arena.exprList? args)
  | .lambda name params body => return .lambda name (← arena.names? params) body
  | .letIn name init body => some (.letIn name init body)

def node? (arena : Arena) (id : ExprId) : Option (Node × Span) := do
  let expr ← arena.expr? id
  return (← arena.nodeOf? expr.kind, expr.span)

end Arena

end TagLang

import TagLang.Branching
import TagLang.Method.Dispatch
import TagLang.Session.Plan

/-! The meaning of each kind of expression, as a computation that asks for the values of its parts. -/

namespace TagLang

namespace Evaluation

def part (id : ExprId) : Evaluation Value := ask (.part id)

def parts (ids : List ExprId) : Evaluation (List Value) := go [] ids
where
  /-- Goes on from the values so far, the latest first. -/
  go (values : List Value) : List ExprId → Evaluation (List Value)
    | [] => return values.reverse
    | id :: rest => do
      let value ← part id
      go (value :: values) rest

def fieldParts (fields : List FieldInit) : Evaluation (List (Name × Value)) := do
  let values ← parts (fields.map FieldInit.value)
  return (fields.map FieldInit.name).zip values

def boolPart (id : ExprId) : Evaluation Bool := do
  match ← part id with
  | .bool value => return value
  | value => throw (.of (.typeMismatch "Bool" value.typeName))

/-- Counts a call and refuses it if it exceeds the budget or the depth limit. -/
def chargeCall : Evaluation Unit := do
  modify fun session => { session with calls := session.mode.countCall session.calls }
  let session ← get
  match session.mode.exceeded? session.calls with
  | some budget => throw (.of (.budgetExceeded budget))
  | none =>
    match session.mode.depthLimit? with
    | some limit => if limit ≤ session.depth then throw (.of (.recursionLimit limit))
    | none => return

/-- Evaluates a closure's body with its parameters bound, then returns to the caller's state. -/
def enter (closure : Closure Value) (args : List Value) : Evaluation Value :=
  ExceptT.mk fun caller =>
    .ask (.body closure.body) (caller.entering closure args) fun answer session =>
      .done (answer, session.leaving caller)

def call (func : Value) (args : List Value) : Evaluation Value := do
  match func with
  | .function closure =>
    let session ← get
    if closure.arity = args.length then
      chargeCall
      enter closure args
    else
      let name := session.interner.lookup closure.name
      throw (.of (.arityMismatch name closure.arity args.length))
  | func => throw (.of (.notCallable func.typeName))

def host : Host (StateT Session Plan) where
  intern s := modifyGet fun session =>
    let (name, interner) := session.interner.tryIntern s
    (name, { session with interner })
  call := call

def closure (name : Name) (params : List Name) (body : ExprId) : Evaluation Value :=
  modifyGet fun session =>
    (.function ⟨name, params, body, session.env.capture, session.program, session.nextClosure⟩,
     { session with nextClosure := session.nextClosure + 1 })

end Evaluation

open Evaluation

namespace ExprKind

def evaluate (arena : Arena) : ExprKind → Evaluation Value
  | int value => return .number value
  | text content => return .text (.ofString ((← get).interner.lookup content))
  | ident name => do
    let session ← get
    match session.env.lookup? name with
    | some value => return value
    | none => throw (.of (.undefinedVariable (session.interner.lookup name)))
  | tag name payload => return .ofTag name (← parts (← entry (arena.exprList? payload)))
  | variant enumId chosen payload => do
    let payload ← parts (← entry (arena.exprList? payload))
    match arena.enums.get? enumId with
    | some layout => settled (Value.ofVariant (← get).interner layout enumId chosen payload)
    | none => throw (.new ("enum " ++ toString enumId.index ++ " is not registered"))
  | binary .and left right => do
    if ← boolPart left then return .bool (← boolPart right) else return .bool false
  | binary .or left right => do
    if ← boolPart left then return .bool true else return .bool (← boolPart right)
  | binary op left right => do
    let left ← part left
    let right ← part right
    settled (op.apply left right)
  | unary op operand => do settled (op.apply (← part operand))
  | ifThen cond thenBranch elseBranch => evalIf part cond thenBranch elseBranch
  | when scrutinee arms => do
    let value ← part scrutinee
    let arms ← entry (arena.arms? arms)
    let selected ← entry (selectArm (← get).interner arena arms value)
    let arm ← settled selected
    inScope arm.bindings (part arm.body)
  | list items => return .list (← parts (← entry (arena.exprList? items)))
  | record typeName fields => return .record (.ofFields typeName (← fieldParts (← entry (arena.fields? fields))))
  | update base fields => do
    let base ← part base
    let updates ← fieldParts (← entry (arena.fields? fields))
    base.callMethod host "set" [.record (.ofFields none updates)]
  | field receiver name => do
    match ← part receiver with
    | .record found =>
      match found.get? name with
      | some value => return value
      | none => throw (.of (.undefinedField ((← get).interner.lookup name)))
    | value => throw (.of (.typeMismatch "Record" value.typeName))
  | method receiver name args => do
    let receiver ← part receiver
    let args ← parts (← entry (arena.exprList? args))
    receiver.callMethod host ((← get).interner.lookup name) args
  | call func args => do
    let func ← part func
    let args ← parts (← entry (arena.exprList? args))
    Evaluation.call func args
  | lambda name params body => do
    let params ← entry (arena.names? params)
    closure name params body
  | letIn name init body => do
    let value ← part init
    inScope [(name, value)] (part body)

end ExprKind

namespace Request

/-- The value of the expression that is asked for. An error keeps the place of the innermost expression
that has one. -/
def evaluate (request : Request) : Evaluation Value := do
  let session ← get
  let arena := session.program.arena
  let expr ← entry (arena.expr? request.id)
  locate expr.span (expr.kind.evaluate arena)

end Request

end TagLang

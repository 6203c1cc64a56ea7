import TagLang.Method.Table
import TagLang.Operation

/-! Library calls. A call is checked against the table first, so an unknown method, a wrong number of
arguments and an argument of a wrong type are refused before anything is done. The methods of a family then
go by name, and fetch the arguments they need. -/

namespace TagLang

/-- What the library needs from whoever runs it: names for strings, and calls of function values. -/
structure Host (m : Type → Type) where
  intern : String → m (Except InternError Name)
  call : Value → List Value → ExceptT EvalError m Value

/-- The host of an interner and a caller, which may use the interner too. -/
def Host.interning {m : Type → Type} [Monad m]
    (call : Value → List Value → ExceptT EvalError (StateT Interner m) Value) : Host (StateT Interner m) where
  intern s := modifyGet fun interner => interner.tryIntern s
  call := call

namespace ParamSpec

def accepts (receiver arg : Value) : ParamSpec → Bool
  | receiverFamily => arg.family? == receiver.family?
  | number => (arg matches .number _)
  | text => (arg matches .text _)
  | record => (arg matches .record _)
  | function => (arg matches .function _)
  | any => true

def expected (receiver : Value) : ParamSpec → String
  | receiverFamily => receiver.typeName
  | number => "Number"
  | text => "Text"
  | record => "Record"
  | function => "Function"
  | any => "any value"

end ParamSpec

namespace Method

def firstRejected? (method : Method) (receiver : Value) (args : List Value) :
    Option ((ParamSpec × Value) × Nat) :=
  (method.params.zip args).zipIdx.find? fun ((param, arg), _) => !param.accepts receiver arg

def checkArgs (method : Method) (receiver : Value) (args : List Value) : Except EvalError Unit :=
  match method.firstRejected? receiver args with
  | none => .ok ()
  | some ((param, arg), position) =>
    let note := "argument " ++ toString position ++ " of " ++ receiver.typeName ++ ":" ++ method.name
    .error ((EvalError.of (.typeMismatch (param.expected receiver) arg.typeName)).withNote ⟨note, none⟩)

def resolve (receiver : Value) (name : String) (args : List Value) : Except EvalError Method :=
  match receiver.family? with
  | none => .error (.of (.undefinedMethod name receiver.typeName))
  | some family =>
    match overload? family name args.length with
    | some method => (method.checkArgs receiver args).map fun _ => method
    | none =>
      match find? family name with
      | some method => .error (.of (.arityMismatch name method.arity args.length))
      | none => .error (.of (.undefinedMethod name receiver.typeName))

end Method

namespace Value

/-- The content of an `ok`, or `none` for an `error` tag, whatever that carries. An `ok` tag must carry
one value, and nothing else is a result. -/
def resultContent (result : Value) : Except EvalError (Option Value) :=
  if result.discriminant? = .some (.named .errorTag) then .ok .none
  else if result.discriminant? = .some (.named .okTag) then
    match result with
    | ok content => .ok (.some content)
    | result => .error (.of (.arityMismatch "ok" 1 result.payload.length))
  else .error (.of (.typeMismatch "Result" result.typeName))

end Value

/-- Applies a callback to the items in order and collects the contents of its `ok` results. The first
`error` tag ends the walk and is the result. -/
def mapWithResult {m : Type → Type} [Monad m] (apply : Value → ExceptT EvalError m Value)
    (items : List Value) : ExceptT EvalError m Value :=
  go [] items
where
  /-- Goes on from the contents collected so far, the latest first. -/
  go (collected : List Value) : List Value → ExceptT EvalError m Value
    | [] => return .ok (.list collected.reverse)
    | item :: rest => do
      let result ← apply item
      match ← ExceptT.mk (pure result.resultContent) with
      | some content => go (content :: collected) rest
      | none => return result

namespace Number

def ofCodePoint (point : CodePoint) : Number :=
  ⟨point.val, by omega, by have bound := point.bound; omega⟩

end Number

namespace Value

def argument (args : List Value) (position : Nat) : Except EvalError Value :=
  match args[position]? with
  | .some arg => .ok arg
  | .none => .error (.new ("missing argument " ++ toString position))

/-- What is read from the argument at a position, which must be of the named type. -/
def typedArgument {α : Type} (expected : String) (read : Value → Option α) (args : List Value) (position : Nat) :
    Except EvalError α := do
  let arg ← argument args position
  match read arg with
  | .some content => .ok content
  | .none => .error (.of (.typeMismatch expected arg.typeName))

def numberArgument (args : List Value) (position : Nat) : Except EvalError Number :=
  typedArgument "Number" number? args position

def textArgument (args : List Value) (position : Nat) : Except EvalError Text :=
  typedArgument "Text" text? args position

end Value

namespace Method

def sizeValue (count : Nat) : Except EvalError Value := orOverflow "size" (Number.ofInt? count)

/-- The methods of numbers are the operators that stand for methods. -/
def onNumber (name : String) (a : Number) (args : List Value) : Except EvalError Value :=
  match BinaryOp.ofMethod? name with
  | some op => do op.onNumbers a (← Value.numberArgument args 0)
  | none => .error (.of (.undefinedMethod name "Number"))

def onText (name : String) (text : Text) (args : List Value) : Except EvalError Value :=
  match name with
  | "size" => sizeValue text.size
  | "getCharCode" => do
    let position ← Value.numberArgument args 0
    return .ofOption ((text.codePointAt? position.val).map fun point => .number (.ofCodePoint point))
  | "concat" => do return .text (text.append (← Value.textArgument args 0))
  | _ => .error (.of (.undefinedMethod name "Text"))

def elementAt? (items : List Value) (position : Number) : Option Value :=
  if position.isNegative then none else items[position.val.toNat]?

variable {m : Type → Type} [Monad m] (host : Host m)

def onSequence (name : String) (items args : List Value) : ExceptT EvalError m Value :=
  match name with
  | "get" => ExceptT.mk (pure do return .ofOption (elementAt? items (← Value.numberArgument args 0)))
  | "append" => return .list (items ++ args)
  | "size" => ExceptT.mk (pure (sizeValue items.length))
  | "mapWithResult" =>
    match args with
    | func :: _ => mapWithResult (fun item => host.call func [item]) items
    | [] => throw (.of (.typeMismatch "Function" "nothing"))
  | _ => throw (.of (.undefinedMethod name "Sequence"))

/-- Sets the field that a text names, if it is the text of a string and the string can be named. -/
def setByText (record : Record Value) (field : Text) (value : Value) : ExceptT EvalError m Value :=
  match field.toString? with
  | some s => do
    match ← host.intern s with
    | .ok name => return .record (record.withField name value)
    | .error error => throw (.new error.message)
  | none => throw (.new "field name contains an unpaired surrogate")

/-- A record's fields are set one by text, or all those of another record at once. -/
def onRecord (name : String) (record : Record Value) (args : List Value) : ExceptT EvalError m Value :=
  match name with
  | "set" =>
    match args with
    | [.text field, value] => setByText host record field value
    | [.record updates] => return .record (record.withFields updates.fields.entries)
    | _ => throw (.of (.undefinedMethod name "Record"))
  | _ => throw (.of (.undefinedMethod name "Record"))

/-- Does the work of a method. All families are copied and compared in the same way. -/
def dispatch (receiver : Value) (name : String) (args : List Value) : ExceptT EvalError m Value :=
  match name with
  | "clone" => return receiver.copy
  | "equals" => ExceptT.mk (pure do return .bool (receiver.equals (← Value.argument args 0)))
  | "notEquals" => ExceptT.mk (pure do return .bool (!receiver.equals (← Value.argument args 0)))
  | _ =>
    match receiver with
    | .number a => ExceptT.mk (pure (onNumber name a args))
    | .text text => ExceptT.mk (pure (onText name text args))
    | .list items => onSequence host name items args
    | .record record => onRecord host name record args
    | _ => throw (.of (.undefinedMethod name receiver.typeName))

end Method

namespace Value

def callMethod {m : Type → Type} [Monad m] (host : Host m) (receiver : Value) (name : String)
    (args : List Value) : ExceptT EvalError m Value := do
  let _ ← ExceptT.mk (pure (Method.resolve receiver name args))
  Method.dispatch host receiver name args

end Value

end TagLang

import TagLang.Arena
import TagLang.EvalError
import TagLang.Family
import TagLang.Record
import TagLang.Text.Basic

/-! Values. Tags in a canonical shape are first-class: `true`, `false` and `none` without payload and
`some`, `ok` and `error` with one value have constructors of their own. -/

namespace TagLang

/-- What tells tags apart: an open tag's name, or the code of a declared enum's variant. -/
inductive Discriminant where
  | named (name : Name)
  | dense (enumId : EnumId) (code : Nat)
deriving DecidableEq, Repr

/-- A function with the bindings that were visible where it was made. Its number tells it from every
other closure, and a name that is not empty stands for the closure itself in its body. -/
structure Closure (α : Type) where
  name : Name
  params : List Name
  body : ExprId
  captures : Bindings α
  program : Program
  number : Nat

namespace Closure

variable {α : Type}

def arity (closure : Closure α) : Nat := closure.params.length

/-- Two closures are the same only if they come from one evaluation of one function expression. -/
def isSame (a b : Closure α) : Bool :=
  a.body == b.body && a.program.number == b.program.number && a.number == b.number

end Closure

inductive Value where
  | number (value : Number)
  | bool (value : Bool)
  | text (value : Text)
  | list (items : List Value)
  | record (value : Record Value)
  | tag (discriminant : Discriminant) (payload : List Value)
  | some (content : Value)
  | none
  | ok (content : Value)
  | error (content : Value)
  | function (value : Closure Value)

namespace Value

def ofOption : Option Value → Value
  | .some content => some content
  | .none => none

/-- A named tag; the canonical shapes become first-class. -/
def ofTag (name : Name) (payload : List Value) : Value :=
  match payload with
  | [] =>
    if name = .trueTag then bool true
    else if name = .falseTag then bool false
    else if name = .noneTag then none
    else tag (.named name) []
  | [content] =>
    if name = .someTag then some content
    else if name = .okTag then ok content
    else if name = .errorTag then error content
    else tag (.named name) [content]
  | payload => tag (.named name) payload

/-- A variant of a declared enum with as many values as it declares. -/
def ofVariant (interner : Interner) (layout : EnumLayout) (enumId : EnumId) (variant : Name)
    (payload : List Value) : Except EvalError Value :=
  match layout.codeOf? variant with
  | .none => .error (.of (.unknownVariant (interner.lookup layout.name) (interner.lookup variant)))
  | .some code =>
    match layout.variant? code with
    | .some declared =>
      if declared.arity = payload.length then .ok (tag (.dense enumId code) payload)
      else .error (.of (.arityMismatch (interner.lookup variant) declared.arity payload.length))
    | .none => .ok (tag (.dense enumId code) payload)

def number? : Value → Option Number
  | number value => .some value
  | _ => .none

def bool? : Value → Option Bool
  | bool value => .some value
  | _ => .none

def text? : Value → Option Text
  | text value => .some value
  | _ => .none

def list? : Value → Option (List Value)
  | list items => .some items
  | _ => .none

def record? : Value → Option (Record Value)
  | record value => .some value
  | _ => .none

def typeName : Value → String
  | number _ => "Number"
  | bool _ => "Bool"
  | text _ => "Text"
  | list _ => "Sequence"
  | record _ => "Record"
  | tag _ _ => "Tag"
  | some _ | none => "Option"
  | ok _ | error _ => "Result"
  | function _ => "Function"

/-- Functions belong to no family. -/
def family? : Value → Option Family
  | number _ => .some .number
  | text _ => .some .text
  | list _ => .some .sequence
  | record _ => .some .record
  | bool _ | tag _ _ | some _ | none | ok _ | error _ => .some .tag
  | function _ => .none

def discriminant? : Value → Option Discriminant
  | bool true => .some (.named .trueTag)
  | bool false => .some (.named .falseTag)
  | some _ => .some (.named .someTag)
  | none => .some (.named .noneTag)
  | ok _ => .some (.named .okTag)
  | error _ => .some (.named .errorTag)
  | tag discriminant _ => .some discriminant
  | _ => .none

/-- The values a tag carries; empty for everything else. -/
def payload : Value → List Value
  | some content | ok content | error content => [content]
  | tag _ payload => payload
  | _ => []

/-- A copy with the same contents. Values never change, so a copy is the value itself. -/
def copy (value : Value) : Value := value

end Value

end TagLang

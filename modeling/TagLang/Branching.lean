import TagLang.Value.Basic

/-! Conditionals and the choice of an arm by a value's tag. -/

namespace TagLang

/-- A conditional over branches that the caller evaluates. Without an else branch it gives an option. -/
def evalIf {m : Type → Type} [Monad m] {Branch : Type} (evaluate : Branch → ExceptT EvalError m Value)
    (cond thenBranch : Branch) (elseBranch : Option Branch) : ExceptT EvalError m Value := do
  let verdict ← evaluate cond
  match verdict, elseBranch with
  | .bool true, some _ => evaluate thenBranch
  | .bool true, none => return .some (← evaluate thenBranch)
  | .bool false, some elseBranch => evaluate elseBranch
  | .bool false, none => return .none
  | verdict, _ => throw (.of (.typeMismatch "Bool" verdict.typeName))

namespace Discriminant

/-- Whether a name denotes the discriminant; an enum variant's name is resolved through its layout. -/
def isDenotedBy (enums : EnumRegistry) (name : Name) : Discriminant → Bool
  | named tag => tag == name
  | dense enumId code => ((enums.get? enumId).bind fun layout => layout.codeOf? name) == some code

def describe (interner : Interner) (enums : EnumRegistry) : Discriminant → String
  | named name => interner.lookup name
  | dense enumId code =>
    match (enums.get? enumId).bind fun layout => layout.variant? code with
    | some variant => interner.lookup variant.name
    | none => "<enum " ++ toString enumId.index ++ ":" ++ toString code ++ ">"

end Discriminant

namespace Arm

def isFor (enums : EnumRegistry) (discriminant : Discriminant) (arm : Arm) : Bool :=
  match arm.pattern with
  | .default => true
  | .tag name _ => discriminant.isDenotedBy enums name

end Arm

structure SelectedArm where
  body : ExprId
  bindings : List (Name × Value)

/-- Selects the first arm for a value. It may bind fewer names than the value carries values, but not
more. `none` means that the arm's names lie outside the arena. -/
def selectArm (interner : Interner) (arena : Arena) (arms : List Arm) (value : Value) :
    Option (Except EvalError SelectedArm) :=
  match value.discriminant? with
  | none => some (.error (.of (.typeMismatch "Tag" value.typeName)))
  | some discriminant =>
    match arms.find? (·.isFor arena.enums discriminant) with
    | none => some (.error (.of (.nonExhaustiveMatch (discriminant.describe interner arena.enums))))
    | some ⟨.default, body⟩ => some (.ok ⟨body, []⟩)
    | some ⟨.tag name range, body⟩ => do
      let names ← arena.names? range
      if names.length ≤ value.payload.length then return .ok ⟨body, names.zip value.payload⟩
      else return .error (.of (.arityMismatch (interner.lookup name) value.payload.length names.length))

end TagLang

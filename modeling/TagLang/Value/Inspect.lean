import TagLang.Text.Quoted
import TagLang.Value.Basic

/-! Values spelled out by their construction, with names and ids as numbers. -/

namespace TagLang

def Discriminant.inspect : Discriminant → String
  | .named name => "Named(" ++ name.inspect ++ ")"
  | .dense enumId code =>
    "Dense \x7b enum_id: " ++ enumId.inspect ++ ", code: " ++ toString code ++ " \x7d"

def Text.inspect (text : Text) : String := quote text.display

def Closure.inspect {α : Type} (closure : Closure α) : String :=
  "FunctionValue \x7b name: " ++ closure.name.inspect ++
    ", params: [" ++ ", ".intercalate (closure.params.map Name.inspect) ++
    "], body: " ++ closure.body.inspect ++
    ", captures: " ++ toString closure.captures.size ++ ", .. \x7d"

namespace Value

mutual

def inspect : Value → String
  | number value => "Number(" ++ value.text ++ ")"
  | bool value => if value then "Bool(true)" else "Bool(false)"
  | text value => "Text(" ++ value.inspect ++ ")"
  | list items => "List([" ++ inspectItems items ++ "])"
  | record ⟨typeName, ⟨fields⟩⟩ =>
    "Record(" ++
      (match typeName with
        | .some typeName => typeName.inspect ++ " "
        | .none => "") ++
      "\x7b" ++ inspectFields fields ++ "\x7d)"
  | tag discriminant payload => "Tag(" ++ discriminant.inspect ++ ", [" ++ inspectItems payload ++ "])"
  | some content => "Some(" ++ inspect content ++ ")"
  | none => "None"
  | ok content => "Ok(" ++ inspect content ++ ")"
  | error content => "Err(" ++ inspect content ++ ")"
  | function closure => "Function(" ++ closure.inspect ++ ")"

def inspectItems : List Value → String
  | [] => ""
  | [item] => inspect item
  | item :: rest => inspect item ++ ", " ++ inspectItems rest

def inspectFields : List (Name × Value) → String
  | [] => ""
  | [(name, value)] => name.inspect ++ ": " ++ inspect value
  | (name, value) :: rest => name.inspect ++ ": " ++ inspect value ++ ", " ++ inspectFields rest

end

end Value

end TagLang

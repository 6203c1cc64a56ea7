import TagLang.Value.Basic

/-! Values as a program would write them. Names are read in an interner, and enum variants in the
program's registry, if there is one. -/

namespace TagLang

/-- The name of a discriminant: `Enum.variant` for a known variant, the bare code for an unknown one. -/
def Discriminant.display (interner : Interner) (enums : Option EnumRegistry) : Discriminant → String
  | .named name => interner.lookup name
  | .dense enumId code =>
    let known := do
      let layout ← (← enums).get? enumId
      let variant ← layout.variant? code
      return interner.lookup layout.name ++ "." ++ interner.lookup variant.name
    known.getD ("<enum " ++ toString enumId.index ++ ":" ++ toString code ++ ">")

namespace Value

mutual

def display (interner : Interner) (enums : Option EnumRegistry) : Value → String
  | number value => value.text
  | bool value => if value then "true" else "false"
  | text value => "\"" ++ value.display ++ "\""
  | list items => "[" ++ displayItems interner enums items ++ "]"
  | record ⟨typeName, ⟨fields⟩⟩ =>
    (match typeName with
      | .some typeName => interner.lookup typeName ++ " "
      | .none => "") ++
    (match fields with
      | [] => "\x7b\x7d"
      | fields => "\x7b " ++ displayFields interner enums fields ++ " \x7d")
  | tag discriminant payload =>
    "#" ++ discriminant.display interner enums ++
    (match payload with
      | [] => ""
      | payload => "(" ++ displayItems interner enums payload ++ ")")
  | some content => "#some(" ++ display interner enums content ++ ")"
  | none => "#none"
  | ok content => "#ok(" ++ display interner enums content ++ ")"
  | error content => "#error(" ++ display interner enums content ++ ")"
  | function _ => "<function>"

def displayItems (interner : Interner) (enums : Option EnumRegistry) : List Value → String
  | [] => ""
  | [item] => display interner enums item
  | item :: rest => display interner enums item ++ ", " ++ displayItems interner enums rest

def displayFields (interner : Interner) (enums : Option EnumRegistry) : List (Name × Value) → String
  | [] => ""
  | [(name, value)] => interner.lookup name ++ ": " ++ display interner enums value
  | (name, value) :: rest =>
    interner.lookup name ++ ": " ++ display interner enums value ++ ", " ++ displayFields interner enums rest

end

end Value

end TagLang

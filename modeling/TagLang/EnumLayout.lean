import TagLang.Interner

/-! Declared enums. The variants of a layout are sorted by name and a variant's code is its position, so
the codes do not depend on the order of the declaration. A code is 32 bits wide, which limits the number of
variants. -/

namespace TagLang

structure EnumId where
  index : Nat
deriving DecidableEq, Repr

namespace EnumId

def inspect (id : EnumId) : String := "EnumId(" ++ toString id.index ++ ")"

end EnumId

structure Variant where
  name : Name
  arity : Nat
deriving DecidableEq, Repr

structure EnumLayout where
  name : Name
  variants : List Variant
deriving DecidableEq, Repr

inductive LayoutError where
  | empty (enumName : String)
  | duplicateVariant (enumName variant : String)
  | tooManyVariants (enumName : String) (count : Nat)
deriving DecidableEq, Repr

namespace LayoutError

def message : LayoutError → String
  | empty enumName => "enum `" ++ enumName ++ "` declares no variants"
  | duplicateVariant enumName variant =>
    "enum `" ++ enumName ++ "` declares variant `" ++ variant ++ "` more than once"
  | tooManyVariants enumName count =>
    "enum `" ++ enumName ++ "` has " ++ toString count ++ " variants, more than a discriminant code can hold"

end LayoutError

namespace EnumLayout

/-- Whether `a` may stand before `b`: their strings are in order. -/
def inOrder (interner : Interner) (a b : Variant) : Bool :=
  decide (interner.lookup a.name ≤ interner.lookup b.name)

def firstRepeat? : List Variant → Option Name
  | a :: b :: rest => if a.name = b.name then some a.name else firstRepeat? (b :: rest)
  | _ => none

/-- How many codes there are: a code is 32 bits wide. -/
def capacity : Nat := 4294967296

/-- The layout of a declaration, which must have variants, but fewer than there are codes. They are sorted
stably, and a name that two neighbours share is refused. -/
def ofDeclaration (interner : Interner) (name : Name) (declared : List Variant) :
    Except LayoutError EnumLayout :=
  if declared.isEmpty then .error (.empty (interner.lookup name))
  else if capacity ≤ declared.length then .error (.tooManyVariants (interner.lookup name) declared.length)
  else
    let variants := declared.mergeSort (inOrder interner)
    match firstRepeat? variants with
    | some repeated => .error (.duplicateVariant (interner.lookup name) (interner.lookup repeated))
    | none => .ok ⟨name, variants⟩

def codeOf? (layout : EnumLayout) (variant : Name) : Option Nat :=
  layout.variants.findIdx? fun v => v.name == variant

def variant? (layout : EnumLayout) (code : Nat) : Option Variant := layout.variants[code]?

def isPayloadFree (layout : EnumLayout) : Bool := layout.variants.all fun v => v.arity == 0

def size (layout : EnumLayout) : Nat := layout.variants.length

def isEmpty (layout : EnumLayout) : Bool := layout.variants.isEmpty

end EnumLayout

/-- The layouts of one program; an enum's id is its position. -/
structure EnumRegistry where
  layouts : Array EnumLayout
deriving DecidableEq

namespace EnumRegistry

def empty : EnumRegistry := ⟨#[]⟩

def register (registry : EnumRegistry) (layout : EnumLayout) : EnumId × EnumRegistry :=
  (⟨registry.layouts.size⟩, ⟨registry.layouts.push layout⟩)

def get? (registry : EnumRegistry) (id : EnumId) : Option EnumLayout := registry.layouts[id.index]?

def size (registry : EnumRegistry) : Nat := registry.layouts.size

def isEmpty (registry : EnumRegistry) : Bool := registry.layouts.isEmpty

end EnumRegistry

end TagLang

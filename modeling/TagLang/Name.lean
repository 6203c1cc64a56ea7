/-! Names of variables, fields and tags: interned strings, known by their position in an interner. -/

namespace TagLang

structure Name where
  index : Nat
deriving DecidableEq, Repr

namespace Name

/-- The strings every interner starts with, in order of their index. -/
def reserved : List String := ["", "true", "false", "some", "none", "ok", "error"]

def empty : Name := ⟨0⟩
def trueTag : Name := ⟨1⟩
def falseTag : Name := ⟨2⟩
def someTag : Name := ⟨3⟩
def noneTag : Name := ⟨4⟩
def okTag : Name := ⟨5⟩
def errorTag : Name := ⟨6⟩

def inspect (name : Name) : String := "Name(" ++ toString name.index ++ ")"

end Name

end TagLang

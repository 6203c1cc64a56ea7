/-! References into an arena: ids of expressions and runs of its side tables. -/

namespace TagLang

structure ExprId where
  index : Nat
deriving DecidableEq, Repr

namespace ExprId

/-- The largest 32-bit index stands for an expression that is not there. -/
def absent : ExprId := ⟨4294967295⟩

def isPresent (id : ExprId) : Bool := id != absent

def present? (id : ExprId) : Option ExprId := if id.isPresent then some id else none

def inspect (id : ExprId) : String :=
  if id.isPresent then "ExprId(" ++ toString id.index ++ ")" else "ExprId::INVALID"

end ExprId

structure TableRange where
  start : Nat
  len : Nat
deriving DecidableEq, Repr

namespace TableRange

def empty : TableRange := ⟨0, 0⟩

def isEmpty (range : TableRange) : Bool := range.len == 0

def stop (range : TableRange) : Nat := range.start + range.len

/-- The entries of a run, if the whole run lies in the table. -/
def read? {α : Type} (range : TableRange) (table : Array α) : Option (List α) :=
  if range.stop ≤ table.size then some (table.extract range.start range.stop).toList else none

def append {α : Type} (table : Array α) (entries : List α) : TableRange × Array α :=
  (⟨table.size, entries.length⟩, table ++ entries)

end TableRange

end TagLang

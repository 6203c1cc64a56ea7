import TagLang.Expr

/-! The arena: the expressions of one program with the side tables their ranges point into. Tables only
grow, so an id or range that was handed out keeps its meaning. Reading outside a table gives `none`. -/

namespace TagLang

structure Arena where
  exprs : Array Expr
  exprLists : Array ExprId
  fields : Array FieldInit
  arms : Array Arm
  names : Array Name
  enums : EnumRegistry
deriving DecidableEq

namespace Arena

def empty : Arena := ⟨#[], #[], #[], #[], #[], .empty⟩

def size (arena : Arena) : Nat := arena.exprs.size

def isEmpty (arena : Arena) : Bool := arena.exprs.isEmpty

def alloc (arena : Arena) (expr : Expr) : ExprId × Arena :=
  (⟨arena.exprs.size⟩, { arena with exprs := arena.exprs.push expr })

def allocExprList (arena : Arena) (ids : List ExprId) : TableRange × Arena :=
  let (range, table) := TableRange.append arena.exprLists ids
  (range, { arena with exprLists := table })

def allocFields (arena : Arena) (fields : List FieldInit) : TableRange × Arena :=
  let (range, table) := TableRange.append arena.fields fields
  (range, { arena with fields := table })

def allocArms (arena : Arena) (arms : List Arm) : TableRange × Arena :=
  let (range, table) := TableRange.append arena.arms arms
  (range, { arena with arms := table })

def allocNames (arena : Arena) (names : List Name) : TableRange × Arena :=
  let (range, table) := TableRange.append arena.names names
  (range, { arena with names := table })

def registerEnum (arena : Arena) (layout : EnumLayout) : EnumId × Arena :=
  let (id, enums) := arena.enums.register layout
  (id, { arena with enums })

def expr? (arena : Arena) (id : ExprId) : Option Expr := arena.exprs[id.index]?

def exprList? (arena : Arena) (range : TableRange) : Option (List ExprId) := range.read? arena.exprLists

def fields? (arena : Arena) (range : TableRange) : Option (List FieldInit) := range.read? arena.fields

def arms? (arena : Arena) (range : TableRange) : Option (List Arm) := range.read? arena.arms

def names? (arena : Arena) (range : TableRange) : Option (List Name) := range.read? arena.names

end Arena

/-- An arena that is complete and no longer changes. Its number tells it from other programs. -/
structure Program where
  number : Nat
  arena : Arena
deriving DecidableEq

end TagLang

import TagLang.Interner

/-! The tables of an interner: a map from strings to indexes, by which strings are named, and the strings in
the order of their indexes, by which names are looked up. A new string is entered into both. -/

namespace TagLang

structure InternTable where
  /-- The latest entry of a string counts. -/
  map : List (String × Nat)
  strings : Array String

namespace InternTable

def empty : InternTable := ⟨[], #[]⟩

def index? (table : InternTable) (s : String) : Option Nat := table.map.lookup s

def insert (table : InternTable) (s : String) (index : Nat) : InternTable :=
  { table with map := (s, index) :: table.map }

def push (table : InternTable) (s : String) : InternTable := { table with strings := table.strings.push s }

/-- The reserved strings are entered one after the other. -/
def new : InternTable := Name.reserved.zipIdx.foldl (fun table (s, index) => (table.insert s index).push s) empty

def size (table : InternTable) : Nat := table.strings.size

def isEmpty (table : InternTable) : Bool := table.size == 0

/-- The name of a string, which is entered unless it is known or all names are taken. -/
def tryIntern (table : InternTable) (s : String) : Except InternError Name × InternTable :=
  match table.index? s with
  | some index => (.ok ⟨index⟩, table)
  | none =>
    if table.size < Interner.capacity then (.ok ⟨table.size⟩, (table.push s).insert s table.size)
    else (.error (.overflow table.size), table)

/-- The name of a string, for callers that count on there being one. -/
def intern? (table : InternTable) (s : String) : Option (Name × InternTable) :=
  match table.tryIntern s with
  | (.ok name, after) => some (name, after)
  | (.error _, _) => none

def lookup (table : InternTable) (name : Name) : String := table.strings[name.index]?.getD ""

end InternTable

end TagLang

import TagLang.Interner

/-! Bindings of names to values, in the order in which the names were first bound. Binding a name again
replaces its value in place. -/

namespace TagLang

structure Bindings (α : Type) where
  entries : List (Name × α)

namespace Bindings

variable {α : Type}

def empty : Bindings α := ⟨[]⟩

def size (bindings : Bindings α) : Nat := bindings.entries.length

def isEmpty (bindings : Bindings α) : Bool := bindings.entries.isEmpty

def names (bindings : Bindings α) : List Name := bindings.entries.map Prod.fst

def get? (bindings : Bindings α) (name : Name) : Option α := bindings.entries.lookup name

/-- Replaces the first entry of a name, or adds one at the end. -/
def put (name : Name) (value : α) : List (Name × α) → List (Name × α)
  | [] => [(name, value)]
  | (other, old) :: rest => if other = name then (name, value) :: rest else (other, old) :: put name value rest

def set (bindings : Bindings α) (name : Name) (value : α) : Bindings α := ⟨put name value bindings.entries⟩

def setAll (bindings : Bindings α) (updates : List (Name × α)) : Bindings α :=
  updates.foldl (fun bindings (name, value) => bindings.set name value) bindings

def ofList (entries : List (Name × α)) : Bindings α := empty.setAll entries

/-- The entries under the strings of their names, sorted by string. -/
def listing (interner : Interner) (bindings : Bindings α) : List (String × α) :=
  (bindings.entries.map fun (name, value) => (interner.lookup name, value)).mergeSort fun a b => a.1 ≤ b.1

end Bindings

end TagLang

import TagLang.Bindings

/-! Records: named fields in a fixed order. Updating a record keeps the places of its fields. -/

namespace TagLang

/-- Named fields, and the name of the type that the record was built under, if it has one. -/
structure Record (α : Type) where
  typeName : Option Name
  fields : Bindings α

namespace Record

variable {α : Type}

/-- A record of the given fields. A repeated name keeps its first place and its last value. -/
def ofFields (typeName : Option Name) (fields : List (Name × α)) : Record α := ⟨typeName, .ofList fields⟩

def get? (record : Record α) (field : Name) : Option α := record.fields.get? field

def size (record : Record α) : Nat := record.fields.size

def isEmpty (record : Record α) : Bool := record.fields.isEmpty

def withFields (record : Record α) (updates : List (Name × α)) : Record α :=
  { record with fields := record.fields.setAll updates }

def withField (record : Record α) (field : Name) (value : α) : Record α := record.withFields [(field, value)]

end Record

end TagLang

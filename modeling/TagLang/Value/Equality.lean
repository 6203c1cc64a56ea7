import TagLang.Value.Basic

/-! The two equalities on values. `equals` is the language's: tags compare by discriminant only and
records without regard to field order. `same` is exact. Functions are equal only to themselves. -/

namespace TagLang.Value

mutual

def equals : Value → Value → Bool
  | number a, number b => a == b
  | text a, text b => a == b
  | list a, list b => equalItems a b
  | record ⟨_, ⟨a⟩⟩, record ⟨_, b⟩ => a.length == b.size && equalFields a b
  | function a, function b => a.isSame b
  | a, b =>
    match a.discriminant?, b.discriminant? with
    | .some a, .some b => a == b
    | _, _ => false

def equalItems : List Value → List Value → Bool
  | [], [] => true
  | a :: as, b :: bs => a.equals b && equalItems as bs
  | _, _ => false

/-- Whether the other record has every one of these fields with an equal value. -/
def equalFields : List (Name × Value) → Bindings Value → Bool
  | [], _ => true
  | (name, a) :: rest, other =>
    (match other.get? name with
      | .some b => a.equals b
      | .none => false) && equalFields rest other

end

mutual

def same : Value → Value → Bool
  | number a, number b => a == b
  | bool a, bool b => a == b
  | text a, text b => a == b
  | list a, list b => sameItems a b
  | record ⟨typeA, ⟨a⟩⟩, record ⟨typeB, ⟨b⟩⟩ => typeA == typeB && sameFields a b
  | tag discriminantA a, tag discriminantB b => discriminantA == discriminantB && sameItems a b
  | some a, some b => a.same b
  | none, none => true
  | ok a, ok b => a.same b
  | error a, error b => a.same b
  | function a, function b => a.isSame b
  | _, _ => false

def sameItems : List Value → List Value → Bool
  | [], [] => true
  | a :: as, b :: bs => a.same b && sameItems as bs
  | _, _ => false

def sameFields : List (Name × Value) → List (Name × Value) → Bool
  | [], [] => true
  | (nameA, a) :: as, (nameB, b) :: bs => nameA == nameB && a.same b && sameFields as bs
  | _, _ => false

end

end TagLang.Value

namespace TagLang.Record

/-- Equality of records in the language: the same field names with equal values. -/
def equals (a b : Record Value) : Bool := (Value.record a).equals (.record b)

/-- Exact equality of records: the same type name and the same fields in the same order. -/
def same (a b : Record Value) : Bool := (Value.record a).same (.record b)

end TagLang.Record

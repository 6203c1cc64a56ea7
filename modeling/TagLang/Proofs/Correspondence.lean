import Mathlib.Data.List.Forall2
import TagLang.Method.Dispatch
import TagLang.Session.Basic

/-! Correspondences between two evaluations. A correspondence says which values, closures, sessions and places
of the two sides belong together; its laws are what the evaluation of expressions asks of it. Equality is the
correspondence of an evaluation with itself. -/

namespace TagLang

def FieldMatch (values : Value → Value → Prop) (left right : Name × Value) : Prop :=
  left.1 = right.1 ∧ values left.2 right.2

/-- Values of one shape whose contents belong together. -/
inductive Value.Alike (values : Value → Value → Prop) (closures : Closure Value → Closure Value → Prop) :
    Value → Value → Prop
  | number (value : Number) : Alike values closures (.number value) (.number value)
  | bool (value : Bool) : Alike values closures (.bool value) (.bool value)
  | text (value : Text) : Alike values closures (.text value) (.text value)
  | list {left right : List Value} (items : List.Forall₂ values left right) :
      Alike values closures (.list left) (.list right)
  | record {left right : Record Value} (named : left.typeName = right.typeName)
      (fields : List.Forall₂ (FieldMatch values) left.fields.entries right.fields.entries) :
      Alike values closures (.record left) (.record right)
  | tag (discriminant : Discriminant) {left right : List Value} (payload : List.Forall₂ values left right) :
      Alike values closures (.tag discriminant left) (.tag discriminant right)
  | some {left right : Value} (content : values left right) : Alike values closures (.some left) (.some right)
  | none : Alike values closures .none .none
  | ok {left right : Value} (content : values left right) : Alike values closures (.ok left) (.ok right)
  | error {left right : Value} (content : values left right) : Alike values closures (.error left) (.error right)
  | function {left right : Closure Value} (closure : closures left right) :
      Alike values closures (.function left) (.function right)

namespace Value.Alike

variable {values : Value → Value → Prop} {closures : Closure Value → Closure Value → Prop} {left right : Value}

theorem typeName (alike : Alike values closures left right) : left.typeName = right.typeName := by
  cases alike <;> rfl

theorem family? (alike : Alike values closures left right) : left.family? = right.family? := by
  cases alike <;> rfl

theorem discriminant? (alike : Alike values closures left right) : left.discriminant? = right.discriminant? := by
  cases alike <;> rfl

theorem payload (alike : Alike values closures left right) : List.Forall₂ values left.payload right.payload := by
  cases alike with
  | tag _ payload => exact payload
  | some content | ok content | error content => exact .cons content .nil
  | _ => exact .nil

theorem ofTag (name : Name) {payload contents : List Value} (related : List.Forall₂ values payload contents) :
    Alike values closures (.ofTag name payload) (.ofTag name contents) := by
  unfold Value.ofTag
  cases related with
  | nil =>
    dsimp only
    split_ifs
    · exact .bool true
    · exact .bool false
    · exact .none
    · exact .tag _ .nil
  | cons content rest =>
    cases rest with
    | nil =>
      dsimp only
      split_ifs
      · exact .some content
      · exact .ok content
      · exact .error content
      · exact .tag _ (.cons content .nil)
    | cons second rest => exact .tag _ (.cons content (.cons second rest))

end Value.Alike

/-- What belongs together on the two sides, which expressions functions may have as bodies, and whether tables may
be read outside their bounds. -/
structure Correspondence where
  values : Value → Value → Prop
  closures : Closure Value → Closure Value → Prop
  sessions : Session → Session → Prop
  spans : Span → Span → Prop
  bodies : ExprId → Prop
  gaps : Prop

namespace Correspondence

/-- What the evaluation of expressions asks of a correspondence: values that belong together have one shape,
the constructions of the language keep values together, and sessions that belong together read alike. -/
structure Laws (c : Correspondence) : Prop where
  alike : ∀ left right, c.values left right → left.Alike c.values c.closures right
  number : ∀ value, c.values (.number value) (.number value)
  bool : ∀ value, c.values (.bool value) (.bool value)
  text : ∀ value, c.values (.text value) (.text value)
  none : c.values .none .none
  some : ∀ left right, c.values left right → c.values (.some left) (.some right)
  ok : ∀ left right, c.values left right → c.values (.ok left) (.ok right)
  list : ∀ left right, List.Forall₂ c.values left right → c.values (.list left) (.list right)
  ofTag : ∀ name left right, List.Forall₂ c.values left right → c.values (.ofTag name left) (.ofTag name right)
  ofFields : ∀ typeName left right, List.Forall₂ (FieldMatch c.values) left right →
    c.values (.record (.ofFields typeName left)) (.record (.ofFields typeName right))
  withFields : ∀ left right updates others, c.values (.record left) (.record right) →
    List.Forall₂ (FieldMatch c.values) updates others →
    c.values (.record (left.withFields updates)) (.record (right.withFields others))
  equals : ∀ left right other another, c.values left right → c.values other another →
    left.equals other = right.equals another
  closure : ∀ left right, c.closures left right → left.name = right.name ∧ left.arity = right.arity
  interner : ∀ left right, c.sessions left right → left.interner = right.interner
  lookup : ∀ left right, c.sessions left right →
    ∀ name, Option.Rel c.values (left.env.lookup? name) (right.env.lookup? name)

end Correspondence

end TagLang

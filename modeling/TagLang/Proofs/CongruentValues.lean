import TagLang.Proofs.BindingLaws
import TagLang.Proofs.MatchedOutcomes
import TagLang.Value.Equality

/-! Values that are the same except for functions. A comparison says when two functions count as the same, given the
same for what they capture; congruence is carried by all constructions of the language, and by its equality. -/

namespace TagLang

/-- A way to compare functions over a way to compare values. A function is compared with itself by its captures. -/
structure Closure.Comparison where
  relates : (Value → Value → Prop) → Closure Value → Closure Value → Prop
  widen : ∀ {narrow wide : Value → Value → Prop}, (∀ left right, narrow left right → wide left right) →
    ∀ left right, relates narrow left right → relates wide left right
  refl : ∀ (values : Value → Value → Prop) closure, closure.captures.All (fun value => values value value) →
    relates values closure closure
  header : ∀ values left right, relates values left right → left.name = right.name ∧ left.arity = right.arity
  isSame : ∀ values others left right other another, relates values left right → relates others other another →
    left.isSame other = right.isSame another

theorem Value.Alike.imp {narrow wide : Value → Value → Prop} {closures others : Closure Value → Closure Value → Prop}
    (widen : ∀ left right, narrow left right → wide left right)
    (functions : ∀ left right, closures left right → others left right) {left right : Value}
    (alike : left.Alike narrow closures right) : left.Alike wide others right := by
  cases alike with
  | number value => exact .number value
  | bool value => exact .bool value
  | text value => exact .text value
  | list items => exact .list (items.imp widen)
  | record named fields => exact .record named (fields.imp fun _ _ field => ⟨field.1, widen _ _ field.2⟩)
  | tag discriminant payload => exact .tag discriminant (payload.imp widen)
  | some content => exact .some (widen _ _ content)
  | none => exact .none
  | ok content => exact .ok (widen _ _ content)
  | error content => exact .error (widen _ _ content)
  | function closure => exact .function (functions _ _ closure)

namespace Value

/-- Values of one shape, all through, whose functions compare. -/
inductive Congruent (functions : Closure.Comparison) : Value → Value → Prop
  | of {between : Value → Value → Prop} {left right : Value}
      (alike : left.Alike between (functions.relates between) right)
      (inside : ∀ part other, between part other → Congruent functions part other) : Congruent functions left right

namespace Congruent

variable {functions : Closure.Comparison}

theorem alike {left right : Value} (congruent : left.Congruent functions right) :
    left.Alike (Congruent functions) (functions.relates (Congruent functions)) right := by
  cases congruent with
  | of alike inside => exact alike.imp inside (functions.widen inside)

theorem intro {left right : Value}
    (alike : left.Alike (Congruent functions) (functions.relates (Congruent functions)) right) :
    left.Congruent functions right :=
  .of alike fun _ _ => id

mutual

theorem refl (functions : Closure.Comparison) : ∀ value : Value, value.Congruent functions value
  | number value => intro (.number value)
  | bool value => intro (.bool value)
  | text value => intro (.text value)
  | list items => intro (.list (refl_items functions items))
  | record ⟨_, ⟨entries⟩⟩ => intro (.record rfl (refl_entries functions entries))
  | tag discriminant payload => intro (.tag discriminant (refl_items functions payload))
  | some content => intro (.some (refl functions content))
  | none => intro .none
  | ok content => intro (.ok (refl functions content))
  | error content => intro (.error (refl functions content))
  | function ⟨_, _, _, ⟨entries⟩, _, _⟩ =>
    intro (.function (functions.refl _ _ fun entry member =>
      (List.forall₂_same.mp (refl_entries functions entries) entry member).2))

theorem refl_items (functions : Closure.Comparison) :
    ∀ items : List Value, List.Forall₂ (Congruent functions) items items
  | [] => .nil
  | item :: items => .cons (refl functions item) (refl_items functions items)

theorem refl_entries (functions : Closure.Comparison) :
    ∀ entries : List (Name × Value), List.Forall₂ (FieldMatch (Congruent functions)) entries entries
  | [] => .nil
  | (_, value) :: entries => .cons ⟨rfl, refl functions value⟩ (refl_entries functions entries)

end

theorem ofTag (name : Name) {left right : List Value} (payload : List.Forall₂ (Congruent functions) left right) :
    (Value.ofTag name left).Congruent functions (.ofTag name right) :=
  intro (.ofTag name payload)

end Congruent

theorem equalItems_related {first second : Value → Value → Prop}
    (equal : ∀ left right, first left right → ∀ {other another}, second other another →
      left.equals other = right.equals another)
    {left right others anothers : List Value} (items : List.Forall₂ first left right)
    (contents : List.Forall₂ second others anothers) : equalItems left others = equalItems right anothers := by
  induction items generalizing others anothers with
  | nil => cases contents <;> rfl
  | cons item _ later =>
    cases contents with
    | nil => rfl
    | cons content contents => rw [equalItems, equalItems, equal _ _ item content, later contents]

theorem equalFields_related {first second : Value → Value → Prop}
    (equal : ∀ left right, first left right → ∀ {other another}, second other another →
      left.equals other = right.equals another)
    {left right : List (Name × Value)} (fields : List.Forall₂ (FieldMatch first) left right)
    (others anothers : Bindings Value)
    (shown : ∀ name, Option.Rel second (others.get? name) (anothers.get? name)) :
    equalFields left others = equalFields right anothers := by
  induction fields with
  | nil => rfl
  | @cons field another _ _ same _ later =>
    obtain ⟨name, value⟩ := field
    obtain ⟨_, counterpart⟩ := another
    obtain ⟨rfl, content⟩ := same
    have found := shown name
    rw [equalFields, equalFields, later]
    generalize others.get? name = value at found ⊢
    generalize anothers.get? name = counterpart at found ⊢
    cases found with
    | none => rfl
    | some shown => simp only [equal _ _ content shown]

/-- Congruent values are equal to the same values. -/
theorem Congruent.equals {functions : Closure.Comparison} {left right other another : Value}
    (congruent : left.Congruent functions right) (counterparts : other.Congruent functions another) :
    left.equals other = right.equals another := by
  -- The induction follows the values on one side; those on the other are compared one shape at a time.
  induction congruent generalizing other another with
  | of alike _ equal =>
    have second := counterparts.alike
    cases alike with
    | list items =>
      cases second with
      | list contents => exact equalItems_related equal items contents
      | _ => rfl
    | record _ fields =>
      cases second with
      | record _ contents =>
        simp only [Value.equals, Bindings.size, fields.length_eq, contents.length_eq]
        rw [equalFields_related equal fields _ _ (lookup_related _ contents)]
      | _ => rfl
    | function closure =>
      cases second with
      | function counterpart => exact functions.isSame _ _ _ _ _ _ closure counterpart
      | _ => rfl
    | _ => cases second <;> rfl

end Value

theorem put_related {values : Value → Value → Prop} (name : Name) {value other : Value} (related : values value other)
    {left right : List (Name × Value)} (entries : List.Forall₂ (FieldMatch values) left right) :
    List.Forall₂ (FieldMatch values) (Bindings.put name value left) (Bindings.put name other right) := by
  induction entries with
  | nil => exact .cons ⟨rfl, related⟩ .nil
  | @cons entry another _ _ same rest later =>
    obtain ⟨key, old⟩ := entry
    obtain ⟨_, counterpart⟩ := another
    obtain ⟨rfl, content⟩ := same
    simp only [Bindings.put]
    split_ifs
    · exact .cons ⟨rfl, related⟩ rest
    · exact .cons ⟨rfl, content⟩ later

theorem setAll_related {values : Value → Value → Prop} {updates others : List (Name × Value)}
    (related : List.Forall₂ (FieldMatch values) updates others) (left right : Bindings Value)
    (entries : List.Forall₂ (FieldMatch values) left.entries right.entries) :
    List.Forall₂ (FieldMatch values) (left.setAll updates).entries (right.setAll others).entries := by
  induction related generalizing left right with
  | nil => exact entries
  | @cons update another _ _ same _ later =>
    obtain ⟨key, value⟩ := update
    obtain ⟨_, counterpart⟩ := another
    obtain ⟨rfl, content⟩ := same
    exact later (left.set key value) (right.set key counterpart) (put_related key content entries)

/-- Congruence has the laws of a correspondence between sessions that name alike and show congruent values. -/
theorem Closure.Comparison.correspondence (functions : Closure.Comparison) (sessions : Session → Session → Prop)
    (spans : Span → Span → Prop) (bodies : ExprId → Prop) (gaps : Prop)
    (interner : ∀ left right, sessions left right → left.interner = right.interner)
    (lookup : ∀ left right, sessions left right →
      ∀ name, Option.Rel (Value.Congruent functions) (left.env.lookup? name) (right.env.lookup? name)) :
    Correspondence.Laws ⟨Value.Congruent functions, functions.relates (Value.Congruent functions), sessions, spans,
      bodies, gaps⟩ where
  alike _ _ congruent := congruent.alike
  number _ := .refl functions _
  bool _ := .refl functions _
  text _ := .refl functions _
  none := .refl functions _
  some _ _ content := .intro (.some content)
  ok _ _ content := .intro (.ok content)
  list _ _ items := .intro (.list items)
  ofTag name _ _ payload := .ofTag name payload
  ofFields typeName left right fields := .intro (.record rfl (setAll_related fields .empty .empty .nil))
  withFields left right updates others records related := by
    cases records.alike with
    | record named fields => exact .intro (.record named (setAll_related related left.fields right.fields fields))
  equals _ _ _ _ congruent counterparts := congruent.equals counterparts
  closure left right closures := functions.header _ left right closures
  interner := interner
  lookup := lookup

end TagLang

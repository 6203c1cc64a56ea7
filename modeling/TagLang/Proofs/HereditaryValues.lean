import TagLang.Proofs.BindingLaws
import TagLang.Proofs.PairedEvaluation

/-! Demands on values and on all they are made of. A demand that every construction of the language meets is met by
whatever a run gives from an environment that meets it: the run is paired with itself over the values that do. -/

namespace TagLang

namespace Value

/-- The values that a value holds: items, field values, payload, content, or the captures of a function. -/
def constituents : Value → List Value
  | number _ | bool _ | text _ | none => []
  | list items => items
  | record value => value.fields.entries.map Prod.snd
  | tag _ payload => payload
  | some content | ok content | error content => [content]
  | function closure => closure.captures.entries.map Prod.snd

mutual

theorem constituents_induction {motive : Value → Prop}
    (step : ∀ value, (∀ part ∈ value.constituents, motive part) → motive value) : ∀ value, motive value
  | number _ | bool _ | text _ | none => step _ (by simp [constituents])
  | list items => step _ (items_induction step items)
  | record ⟨_, ⟨entries⟩⟩ => step _ (entries_induction step entries)
  | tag _ payload => step _ (items_induction step payload)
  | some content | ok content | error content =>
    step _ (List.forall_mem_singleton.mpr (constituents_induction step content))
  | function ⟨_, _, _, ⟨entries⟩, _, _⟩ => step _ (entries_induction step entries)

theorem items_induction {motive : Value → Prop}
    (step : ∀ value, (∀ part ∈ value.constituents, motive part) → motive value) :
    ∀ items : List Value, ∀ item ∈ items, motive item
  | [] => by simp
  | item :: items => List.forall_mem_cons.mpr ⟨constituents_induction step item, items_induction step items⟩

theorem entries_induction {motive : Value → Prop}
    (step : ∀ value, (∀ part ∈ value.constituents, motive part) → motive value) :
    ∀ entries : List (Name × Value), ∀ content ∈ entries.map Prod.snd, motive content
  | [] => by simp
  | (_, content) :: entries =>
    List.forall_mem_cons.mpr ⟨constituents_induction step content, entries_induction step entries⟩

end

theorem constituents_ofTag (name : Name) (payload : List Value) : (ofTag name payload).constituents = payload := by
  unfold ofTag
  split
  · split_ifs <;> rfl
  · split_ifs <;> rfl
  · rfl

/-- Whether a value and all that it is made of, however deep, meet a condition. -/
inductive Throughout (condition : Value → Prop) : Value → Prop
  | intro (value : Value) (here : condition value)
      (inside : ∀ part ∈ value.constituents, Throughout condition part) : Throughout condition value

variable {condition : Value → Prop} {value : Value}

theorem Throughout.here (all : value.Throughout condition) : condition value := by
  cases all with
  | intro _ here _ => exact here

theorem Throughout.inside (all : value.Throughout condition) :
    ∀ part ∈ value.constituents, part.Throughout condition := by
  cases all with
  | intro _ _ inside => exact inside

end Value

/-- The tags that are first-class: a name with the number of values it carries. -/
def Name.Canonical (name : Name) (count : Nat) : Prop :=
  count = 0 ∧ name ∈ [trueTag, falseTag, noneTag] ∨ count = 1 ∧ name ∈ [someTag, okTag, errorTag]

/-- What is demanded of single values: of a record's field names, of a tag with its number of values, and of the
program and the body of a function. -/
structure Demand where
  record : List Name → Prop := fun _ => True
  tag : Discriminant → Nat → Prop := fun _ _ => True
  program : Program → Prop := fun _ => True
  body : Program → ExprId → Prop := fun _ _ => True

namespace Demand

def Met (demand : Demand) : Value → Prop
  | .record value => demand.record value.fields.names
  | .tag discriminant payload => demand.tag discriminant payload.length
  | .function closure => demand.program closure.program ∧ demand.body closure.program closure.body
  | _ => True

def Holds (demand : Demand) (value : Value) : Prop := value.Throughout demand.Met

/-- What evaluation asks of a demand: values as the language builds them meet it, and in a program that meets it the
children of an expression do so too. -/
structure Laws (demand : Demand) (gaps : Prop) : Prop where
  ofFields : ∀ fields : List (Name × Value), demand.record (Bindings.ofList fields).names
  withFields : ∀ (fields : Bindings Value) updates, demand.record fields.names →
    demand.record (fields.setAll updates).names
  named : ∀ name count, ¬ name.Canonical count → demand.tag (.named name) count
  variant : ∀ program enumId layout code variant, demand.program program →
    program.arena.enums.get? enumId = some layout → layout.variant? code = some variant →
      demand.tag (.dense enumId code) variant.arity
  present : ∀ program id, demand.program program → demand.body program id → gaps ∨ (program.arena.expr? id).isSome
  readable : ∀ program id expr, demand.program program → program.arena.expr? id = some expr →
    gaps ∨ (program.arena.nodeOf? expr.kind).isSome
  children : ∀ program id expr, demand.program program → program.arena.expr? id = some expr →
    ∀ child ∈ expr.kind.parts program.arena ++ expr.kind.body?.toList, demand.body program child

/-- A run beside itself, over values that meet a demand. -/
def pairing (demand : Demand) (gaps : Prop) : Pairing where
  values left right := left = right ∧ demand.Holds left
  closures left right := left = right ∧ demand.Holds (.function left)
  envs left right := left = right ∧ left.All demand.Holds
  programs left right := left = right ∧ demand.program left
  errors := Eq
  spans := Eq
  inside := demand.body
  gaps := gaps

/-- A demand on the programs of functions only. -/
def ofPrograms (condition : Program → Prop) : Demand where
  program := condition

theorem ofPrograms_laws (condition : Program → Prop) : (ofPrograms condition).Laws True where
  ofFields _ := trivial
  withFields _ _ _ := trivial
  named _ _ _ := trivial
  variant _ _ _ _ _ _ _ _ := trivial
  present _ _ _ _ := .inl trivial
  readable _ _ _ _ _ := .inl trivial
  children _ _ _ _ _ _ _ := trivial

variable {demand : Demand} {gaps : Prop}

theorem values_forall₂ (gaps : Prop) (left right : List Value) :
    List.Forall₂ (demand.pairing gaps).values left right ↔ left = right ∧ ∀ value ∈ left, demand.Holds value := by
  constructor
  · intro related
    induction related with
    | nil => simp
    | cons first _ rest =>
      obtain ⟨rfl, meets⟩ := first
      obtain ⟨rfl, all⟩ := rest
      exact ⟨rfl, List.forall_mem_cons.mpr ⟨meets, all⟩⟩
  · rintro ⟨rfl, all⟩
    exact List.forall₂_same.mpr fun value member => ⟨rfl, all value member⟩

theorem fields_forall₂ (gaps : Prop) (left right : List (Name × Value)) :
    List.Forall₂ (FieldMatch (demand.pairing gaps).values) left right ↔
      left = right ∧ ∀ field ∈ left, demand.Holds field.2 := by
  constructor
  · intro related
    induction related with
    | nil => simp
    | cons first _ rest =>
      obtain ⟨name, value, meets⟩ := first
      obtain ⟨rfl, all⟩ := rest
      exact ⟨by rw [Prod.ext name value], List.forall_mem_cons.mpr ⟨meets, all⟩⟩
  · rintro ⟨rfl, all⟩
    exact List.forall₂_same.mpr fun field member => ⟨rfl, rfl, all field member⟩

theorem holds_record (value : Record Value) (names : demand.record value.fields.names)
    (fields : value.fields.All demand.Holds) : demand.Holds (.record value) :=
  .intro _ names (List.forall_mem_map.mpr fields)

theorem holds_function (closure : Closure Value) (program : demand.program closure.program)
    (body : demand.body closure.program closure.body) (captures : closure.captures.All demand.Holds) :
    demand.Holds (.function closure) :=
  .intro _ ⟨program, body⟩ (List.forall_mem_map.mpr captures)

theorem Holds.fields {value : Record Value} (holds : demand.Holds (.record value)) : value.fields.All demand.Holds :=
  fun field member => holds.inside field.2 (List.mem_map_of_mem member)

theorem Holds.captures {closure : Closure Value} (holds : demand.Holds (.function closure)) :
    closure.captures.All demand.Holds :=
  fun binding member => holds.inside binding.2 (List.mem_map_of_mem member)

theorem holds_single (value content : Value) (met : demand.Met value) (same : value.constituents = [content])
    (holds : demand.Holds content) : demand.Holds value := by
  refine .intro value met ?_
  rw [same]
  exact List.forall_mem_singleton.mpr holds

theorem holds_plain (value : Value) (met : demand.Met value) (none : value.constituents = []) : demand.Holds value :=
  .intro value met (by simp [none])

theorem met_ofTag (named : ∀ name count, ¬ name.Canonical count → demand.tag (.named name) count) (name : Name)
    (payload : List Value) : demand.Met (.ofTag name payload) := by
  -- In each arity the names that are not first-class are the ones left over, so the tag is not canonical.
  unfold Value.ofTag
  split
  next =>
    split_ifs with isTrue isFalse isNone
    · trivial
    · trivial
    · trivial
    · apply named name 0
      simp [Name.Canonical, isTrue, isFalse, isNone]
  next content =>
    split_ifs with isSome isOk isError
    · trivial
    · trivial
    · trivial
    · apply named name 1
      simp [Name.Canonical, isSome, isOk, isError]
  next several single =>
    apply named name payload.length
    rintro (⟨none, _⟩ | ⟨one, _⟩)
    · exact several (List.length_eq_zero_iff.mp none)
    · obtain ⟨content, rfl⟩ := List.length_eq_one_iff.mp one
      exact single content rfl

theorem holds_ofTag (laws : demand.Laws gaps) (name : Name) (payload : List Value)
    (all : ∀ value ∈ payload, demand.Holds value) : demand.Holds (.ofTag name payload) := by
  apply Value.Throughout.intro _ (met_ofTag laws.named name payload)
  rwa [Value.constituents_ofTag]

theorem holds_alike (gaps : Prop) (value : Value) (holds : demand.Holds value) :
    value.Alike (demand.pairing gaps).values (demand.pairing gaps).closures value := by
  have parts := holds.inside
  cases value with
  | number value => exact .number value
  | bool value => exact .bool value
  | text value => exact .text value
  | list items => exact .list ((values_forall₂ gaps _ _).mpr ⟨rfl, parts⟩)
  | record value => exact .record rfl ((fields_forall₂ gaps _ _).mpr ⟨rfl, holds.fields⟩)
  | tag discriminant payload => exact .tag discriminant ((values_forall₂ gaps _ _).mpr ⟨rfl, parts⟩)
  | some content => exact .some ⟨rfl, parts content List.mem_cons_self⟩
  | none => exact .none
  | ok content => exact .ok ⟨rfl, parts content List.mem_cons_self⟩
  | error content => exact .error ⟨rfl, parts content List.mem_cons_self⟩
  | function closure => exact .function ⟨rfl, holds⟩

theorem envs_lookup? (gaps : Prop) (left right : Environment) (same : (demand.pairing gaps).envs left right)
    (name : Name) : Option.Rel (demand.pairing gaps).values (left.lookup? name) (right.lookup? name) := by
  obtain ⟨rfl, all⟩ := same
  cases found : left.lookup? name with
  | none => exact .none
  | some value => exact .some ⟨rfl, all.lookup? name value found⟩

namespace Laws

variable (laws : demand.Laws gaps)
include laws

theorem correspondence (start : Session) : ((demand.pairing gaps).during start).Laws where
  alike := by
    rintro value _ ⟨rfl, holds⟩
    exact holds_alike gaps value holds
  number value := ⟨rfl, holds_plain _ trivial rfl⟩
  bool value := ⟨rfl, holds_plain _ trivial rfl⟩
  text value := ⟨rfl, holds_plain _ trivial rfl⟩
  none := ⟨rfl, holds_plain _ trivial rfl⟩
  some := by
    rintro content _ ⟨rfl, holds⟩
    exact ⟨rfl, holds_single _ content trivial rfl holds⟩
  ok := by
    rintro content _ ⟨rfl, holds⟩
    exact ⟨rfl, holds_single _ content trivial rfl holds⟩
  list left right related := by
    obtain ⟨rfl, all⟩ := (values_forall₂ gaps left right).mp related
    exact ⟨rfl, .intro _ trivial all⟩
  ofTag name left right related := by
    obtain ⟨rfl, all⟩ := (values_forall₂ gaps left right).mp related
    exact ⟨rfl, holds_ofTag laws name left all⟩
  ofFields typeName left right related := by
    obtain ⟨rfl, all⟩ := (fields_forall₂ gaps left right).mp related
    exact ⟨rfl, holds_record _ (laws.ofFields left) ((Bindings.all_empty _).setAll left all)⟩
  withFields left right updates others records related := by
    obtain ⟨same, holds⟩ := records
    obtain rfl := Value.record.inj same
    obtain ⟨rfl, all⟩ := (fields_forall₂ gaps updates others).mp related
    exact ⟨rfl, holds_record _ (laws.withFields left.fields updates holds.here) (holds.fields.setAll updates all)⟩
  equals := by
    rintro left _ other _ ⟨rfl, _⟩ ⟨rfl, _⟩
    rfl
  closure := by
    rintro closure _ ⟨rfl, _⟩
    exact ⟨rfl, rfl⟩
  interner _ _ together := together.1.interner
  lookup left right together name := envs_lookup? gaps left.env right.env together.1.env name

theorem pairing : (demand.pairing gaps).Laws where
  correspondence := laws.correspondence
  variants := by
    rintro start _ ⟨rfl, program⟩ enumId layout code variant left right registered coded arity related
    obtain ⟨rfl, all⟩ := (values_forall₂ gaps left right).mp related
    have declared := laws.variant start.program enumId layout code variant program registered coded
    rw [arity] at declared
    exact ⟨rfl, .intro _ declared all⟩
  tables := by
    rintro program _ ⟨rfl, _⟩
    rfl
  expr := by
    rintro program _ id ⟨rfl, _⟩ _
    cases program.arena.expr? id with
    | none => exact .none
    | some expr => exact .some ⟨rfl, rfl⟩
  present := by
    rintro program _ id ⟨rfl, met⟩ inside
    exact laws.present program id met inside
  readable := by
    rintro program _ id expr ⟨rfl, met⟩ _ found
    exact laws.readable program id expr met found
  children := by
    rintro program _ id expr ⟨rfl, met⟩ _ found
    exact laws.children program id expr met found
  inScope := by
    rintro env _ bindings others ⟨rfl, all⟩ related
    obtain ⟨rfl, bound⟩ := (fields_forall₂ gaps bindings others).mp related
    exact ⟨rfl, all.push.defineAll bindings bound⟩
  captured := by
    rintro program _ env _ name params body number ⟨rfl, met⟩ inside ⟨rfl, all⟩
    exact ⟨rfl, holds_function _ met inside all.capture⟩
  callee := by
    rintro closure _ ⟨rfl, holds⟩
    obtain ⟨program, body⟩ := holds.here
    exact ⟨rfl, ⟨rfl, program⟩, body⟩
  entered := by
    rintro session other closure _ args others ⟨rfl, holds⟩ related
    obtain ⟨rfl, all⟩ := (values_forall₂ gaps args others).mp related
    refine ⟨rfl, ?_⟩
    have captured : (Environment.ofCaptures closure.captures).All demand.Holds := by
      simpa [Environment.All, Environment.scopes, Environment.ofCaptures] using holds.captures
    have params : ∀ binding ∈ closure.params.zip args, demand.Holds binding.2 :=
      fun binding member => all binding.2 (List.of_mem_zip member).2
    unfold Session.entering
    dsimp only
    split
    next => exact captured.push.defineAll _ params
    next => exact (captured.define closure.name _ holds).push.defineAll _ params
  raised _ := rfl
  noted _ _ _ _ := rfl
  located := by
    rintro error _ span _ rfl rfl
    rfl

/-- What a run gives from a session that meets a demand meets it too, and such a run reads no table outside its
bounds unless gaps are allowed. -/
theorem eval (session : Session) (program : demand.program session.program) (env : session.env.All demand.Holds)
    (id : ExprId) (inside : demand.body session.program id) (fuel : Nat) :
    (session.eval fuel id = .outOfRange → gaps) ∧
      ∀ value after, session.eval fuel id = .finished (.ok value) after → demand.Holds value := by
  have abreast : session.Abreast (demand.pairing gaps) session :=
    ⟨rfl, ⟨rfl, program⟩, ⟨rfl, env⟩, rfl, rfl, rfl, rfl⟩
  have paired := laws.pairing.run (.part id) session session abreast inside fuel
  change Outcome.Paired gaps _ (session.eval fuel id) (session.eval fuel id) at paired
  constructor
  · intro outOfRange
    rw [outOfRange] at paired
    cases paired with
    | outOfRange gap => exact gap
  · intro value after finished
    rw [finished] at paired
    cases paired with
    | finished ended =>
      cases ended.outcome with
      | ok related => exact related.2

end Laws

end Demand

end TagLang

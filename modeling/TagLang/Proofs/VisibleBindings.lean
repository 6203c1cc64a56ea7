import TagLang.Proofs.CongruentValues
import TagLang.Proofs.PairedEvaluation

/-! Evaluation reads an environment by name only. Sessions whose environments show every name alike evaluate alike,
however their scopes are stacked, up to the layout of what functions capture. -/

namespace TagLang

/-- Functions of one expression whose captures show every name alike. -/
structure Closure.ShowAlike (values : Value → Value → Prop) (left right : Closure Value) : Prop where
  name : left.name = right.name
  params : left.params = right.params
  body : left.body = right.body
  program : left.program = right.program
  number : left.number = right.number
  captures : ∀ name, Option.Rel values (left.captures.get? name) (right.captures.get? name)

namespace Closure.Comparison

def visible : Closure.Comparison where
  relates := Closure.ShowAlike
  widen := by
    intro narrow wide widen left right alike
    refine { alike with captures := fun name => ?_ }
    have shown := alike.captures name
    generalize left.captures.get? name = value at shown ⊢
    generalize right.captures.get? name = other at shown ⊢
    cases shown with
    | none => exact .none
    | some related => exact .some (widen _ _ related)
  refl := by
    intro values closure all
    refine ⟨rfl, rfl, rfl, rfl, rfl, fun name => ?_⟩
    cases found : closure.captures.get? name with
    | none => exact .none
    | some value => exact .some (all.get? name value found)
  header _ _ _ alike := ⟨alike.name, congrArg List.length alike.params⟩
  isSame _ _ _ _ _ _ first second := by
    simp only [Closure.isSame, first.body, second.body, first.program, second.program, first.number, second.number]

end Closure.Comparison

/-- Environments that show the same value, or none, under each name. -/
def Environment.ShowAlike (left right : Environment) : Prop :=
  ∀ name, Option.Rel (Value.Congruent .visible) (left.lookup? name) (right.lookup? name)

namespace Environment.ShowAlike

variable {left right : Environment}

theorem inScope (alike : left.ShowAlike right) {bindings others : List (Name × Value)}
    (bound : List.Forall₂ (FieldMatch (Value.Congruent .visible)) bindings others) :
    (left.push.defineAll bindings).ShowAlike (right.push.defineAll others) := by
  intro name
  have latest := lookup_related _ (List.rel_reverse bound) name
  rw [lookup?_defineAll, lookup?_defineAll, lookup?_push, lookup?_push]
  generalize bindings.reverse.lookup name = value at latest ⊢
  generalize others.reverse.lookup name = other at latest ⊢
  cases latest with
  | none => exact alike name
  | some related => exact .some related

theorem define (alike : left.ShowAlike right) (name : Name) {value other : Value}
    (related : value.Congruent .visible other) : (left.define name value).ShowAlike (right.define name other) := by
  intro key
  rw [lookup?_define, lookup?_define]
  split
  next => exact .some related
  next => exact alike key

theorem of_lookup? (same : ∀ name, left.lookup? name = right.lookup? name) : left.ShowAlike right := by
  intro name
  rw [same name]
  cases right.lookup? name with
  | none => exact .none
  | some value => exact .some (.refl .visible value)

theorem capture (env : Environment) : env.ShowAlike (.ofCaptures env.capture) := by
  refine of_lookup? fun name => ?_
  rw [lookup?_ofCaptures, get?_capture]

end Environment.ShowAlike

namespace Pairing

def visible : Pairing where
  values := Value.Congruent .visible
  closures := Closure.ShowAlike (Value.Congruent .visible)
  envs := Environment.ShowAlike
  programs := Eq
  errors := Eq
  spans := Eq
  inside _ _ := True
  gaps := True

theorem visible_entered (session other : Session) (left right : Closure Value) (args others : List Value)
    (closures : left.ShowAlike (Value.Congruent .visible) right)
    (values : List.Forall₂ (Value.Congruent .visible) args others) :
    (session.entering left args).env.ShowAlike (other.entering right others).env := by
  have captured : (Environment.ofCaptures left.captures).ShowAlike (.ofCaptures right.captures) := by
    intro name
    rw [Environment.lookup?_ofCaptures, Environment.lookup?_ofCaptures]
    exact closures.captures name
  have params := zip_fieldMatch _ left.params args others values
  unfold Session.entering
  dsimp only
  rw [← closures.name, ← closures.params]
  split
  next => exact captured.inScope params
  next => exact (captured.define left.name (.intro (.function closures))).inScope params

theorem visible_laws : visible.Laws where
  correspondence start := Closure.Comparison.visible.correspondence _ _ _ _ (fun _ _ together => together.1.interner)
    fun _ _ together => together.1.env
  variants start other same enumId layout code variant left right registered coded arity related :=
    .intro (.tag _ related)
  tables := by
    rintro program _ rfl
    rfl
  expr := by
    rintro program _ id rfl _
    cases program.arena.expr? id with
    | none => exact .none
    | some expr => exact .some ⟨rfl, rfl⟩
  present _ _ _ _ _ := .inl trivial
  readable _ _ _ _ _ _ _ := .inl trivial
  children _ _ _ _ _ _ _ _ _ := trivial
  inScope _ _ _ _ alike bound := alike.inScope bound
  captured := by
    rintro program _ env other name params body number rfl _ alike
    refine .intro (.function ⟨rfl, rfl, rfl, rfl, rfl, fun key => ?_⟩)
    rw [Environment.get?_capture, Environment.get?_capture]
    exact alike key
  callee left right closures := ⟨closures.body, closures.program, trivial⟩
  entered := visible_entered
  raised _ := rfl
  noted _ _ _ _ := rfl
  located := by
    rintro error _ span _ rfl rfl
    rfl

end Pairing

/-- Outcomes with the same error or congruent values, the same count of calls and the same names. -/
def Outcome.Agree : Outcome → Outcome → Prop :=
  Outcome.Paired True fun final last => OutcomePair Eq (Value.Congruent .visible) final.1 last.1 ∧
    final.2.calls = last.2.calls ∧ final.2.interner = last.2.interner

theorem Session.eval_agree (session : Session) (env : Environment) (alike : session.env.ShowAlike env) (id : ExprId)
    (fuel : Nat) : (session.eval fuel id).Agree ({ session with env }.eval fuel id) := by
  have abreast : session.Abreast .visible { session with env } := ⟨rfl, rfl, alike, rfl, rfl, rfl, rfl⟩
  have paired := Pairing.visible_laws.run (.part id) session _ abreast trivial fuel
  exact paired.imp fun _ _ ended => ⟨ended.outcome, ended.calls, ended.interner⟩

/-- Evaluation depends on what an environment shows under each name and on nothing else, so it may as well start from
the capture of its environment. -/
theorem Session.eval_visible (session : Session) (id : ExprId) (fuel : Nat) :
    (∀ env, session.env.ShowAlike env → (session.eval fuel id).Agree ({ session with env }.eval fuel id)) ∧
      (session.eval fuel id).Agree ({ session with env := .ofCaptures session.env.capture }.eval fuel id) :=
  ⟨fun env alike => session.eval_agree env alike id fuel, session.eval_agree _ (.capture session.env) id fuel⟩

/-- `(y) => x` where `x` is bound over another `x`, and where it is bound once, in another order. -/
theorem Session.eval_visible_shadowed :
    let program : Program := ⟨0, { Arena.empty with
      exprs := #[⟨.ident ⟨7⟩, .dummy⟩, ⟨.lambda .empty ⟨0, 1⟩ ⟨0⟩, .dummy⟩]
      names := #[⟨8⟩] }⟩
    let one : Value := .number .one
    let truth : Value := .bool true
    let stacked : Environment := .ofScopes [[(⟨7⟩, one), (⟨8⟩, one)], [(⟨7⟩, truth)]]
    let flat : Environment := .ofScopes [[(⟨8⟩, one), (⟨7⟩, truth)]]
    let session := Session.new .new program stacked .testRun 0
    stacked.ShowAlike flat ∧ stacked.depth ≠ flat.depth ∧
      ∃ closure after other final, session.eval 9 ⟨1⟩ = .finished (.ok (.function closure)) after ∧
        { session with env := flat }.eval 9 ⟨1⟩ = .finished (.ok (.function other)) final ∧
          closure.captures.names ≠ other.captures.names ∧
            (session.eval 9 ⟨1⟩).Agree ({ session with env := flat }.eval 9 ⟨1⟩) := by
  intro program one truth stacked flat session
  have alike : stacked.ShowAlike flat := by
    refine .of_lookup? fun name => ?_
    simp only [stacked, flat, Environment.ofScopes, List.foldl_cons, List.foldl_nil, Environment.lookup?_defineAll,
      Environment.lookup?_push, List.reverse_cons, List.reverse_nil, List.nil_append, List.cons_append,
      Bindings.lookup_cons]
    split_ifs <;> rfl
  exact ⟨alike, by decide, _, _, _, _, rfl, rfl, by decide, (session.eval_visible ⟨1⟩ 9).1 flat alike⟩

end TagLang

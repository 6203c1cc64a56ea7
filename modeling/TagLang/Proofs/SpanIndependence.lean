import TagLang.Proofs.CongruentValues
import TagLang.Proofs.PairedEvaluation

/-! Evaluation never looks at spans. Programs that differ in the spans of their expressions only, at whatever depth
their functions meet each other, run in step to the same values and to errors that differ in their place at most. -/

namespace TagLang

/-- Programs of one number with the same expressions in the same tables, wherever they stand in a source text. -/
structure Program.SameCode (left right : Program) : Prop where
  number : left.number = right.number
  tables : right.arena = { left.arena with exprs := right.arena.exprs }
  kinds : left.arena.exprs.map Expr.kind = right.arena.exprs.map Expr.kind

theorem Program.SameCode.refl (program : Program) : program.SameCode program := ⟨rfl, rfl, rfl⟩

theorem Program.SameCode.expr {left right : Program} (same : left.SameCode right) (id : ExprId) :
    Option.Rel (fun expr other => expr.kind = other.kind) (left.arena.expr? id) (right.arena.expr? id) := by
  have read : (left.arena.expr? id).map Expr.kind = (right.arena.expr? id).map Expr.kind := by
    have kinds := congrArg (·[id.index]?) same.kinds
    simpa [Arena.expr?] using kinds
  cases first : left.arena.expr? id with
  | none =>
    have second : right.arena.expr? id = none := by simpa [first] using read.symm
    rw [second]
    exact .none
  | some expr =>
    rw [first, Option.map_some] at read
    obtain ⟨other, second, kind⟩ := Option.map_eq_some_iff.mp read.symm
    rw [second]
    exact .some kind.symm

/-- Functions of the same code whose captures belong together, binding by binding. -/
structure Closure.SameCode (values : Value → Value → Prop) (left right : Closure Value) : Prop where
  name : left.name = right.name
  params : left.params = right.params
  body : left.body = right.body
  program : left.program.SameCode right.program
  number : left.number = right.number
  captures : List.Forall₂ (FieldMatch values) left.captures.entries right.captures.entries

def Closure.Comparison.upToSpans : Closure.Comparison where
  relates := Closure.SameCode
  widen := by
    intro narrow wide widen left right same
    exact { same with captures := same.captures.imp fun _ _ field => ⟨field.1, widen _ _ field.2⟩ }
  refl := by
    intro values closure all
    have captures : List.Forall₂ (FieldMatch values) closure.captures.entries closure.captures.entries :=
      List.forall₂_same.mpr fun entry member => ⟨rfl, all entry member⟩
    exact ⟨rfl, rfl, rfl, .refl closure.program, rfl, captures⟩
  header _ _ _ same := ⟨same.name, congrArg List.length same.params⟩
  isSame _ _ _ _ _ _ first second := by
    simp only [Closure.isSame, first.body, second.body, first.program.number, second.program.number, first.number,
      second.number]

/-- Scopes with the same names in the same order, bound to values that are the same up to spans. -/
def Scope.SameCode (left right : Scope) : Prop :=
  List.Forall₂ (FieldMatch (Value.Congruent .upToSpans)) left.entries right.entries

structure Environment.SameCode (left right : Environment) : Prop where
  locals : List.Forall₂ Scope.SameCode left.locals right.locals
  globals : Scope.SameCode left.globals right.globals

namespace Environment.SameCode

variable {left right : Environment}

theorem scopes (same : left.SameCode right) : List.Forall₂ Scope.SameCode left.scopes right.scopes :=
  List.rel_append same.locals (.cons same.globals .nil)

theorem lookup? (same : left.SameCode right) (name : Name) :
    Option.Rel (Value.Congruent .upToSpans) (left.lookup? name) (right.lookup? name) := by
  have scopes := same.scopes
  unfold Environment.lookup?
  generalize left.scopes = first at scopes ⊢
  generalize right.scopes = second at scopes ⊢
  induction scopes with
  | nil => exact .none
  | @cons scope other _ _ entries _ outer =>
    have found : Option.Rel _ (scope.get? name) (other.get? name) := lookup_related _ entries name
    rw [List.findSome?_cons, List.findSome?_cons]
    generalize scope.get? name = value at found ⊢
    generalize other.get? name = counterpart at found ⊢
    cases found with
    | none => exact outer
    | some related => exact .some related

theorem define (same : left.SameCode right) (name : Name) {value other : Value}
    (related : value.Congruent .upToSpans other) : (left.define name value).SameCode (right.define name other) := by
  obtain ⟨locals, globals⟩ := left
  obtain ⟨others, outer⟩ := right
  obtain ⟨inner, whole⟩ := same
  cases inner with
  | nil => exact ⟨.nil, put_related name related whole⟩
  | cons scope rest => exact ⟨.cons (put_related name related scope) rest, whole⟩

theorem inScope (same : left.SameCode right) {bindings others : List (Name × Value)}
    (bound : List.Forall₂ (FieldMatch (Value.Congruent .upToSpans)) bindings others) :
    (left.push.defineAll bindings).SameCode (right.push.defineAll others) := by
  have pushed : left.push.SameCode right.push := ⟨.cons .nil same.locals, same.globals⟩
  generalize left.push = first at pushed ⊢
  generalize right.push = second at pushed ⊢
  induction bound generalizing first second with
  | nil => exact pushed
  | @cons binding other _ _ related _ defined =>
    obtain ⟨name, value⟩ := binding
    obtain ⟨_, counterpart⟩ := other
    obtain ⟨rfl, content⟩ := related
    exact defined _ _ (pushed.define name content)

theorem capture (same : left.SameCode right) : Scope.SameCode left.capture right.capture := by
  have scopes := same.scopes
  unfold Environment.capture
  generalize left.scopes = first at scopes ⊢
  generalize right.scopes = second at scopes ⊢
  induction scopes with
  | nil => exact .nil
  | cons entries _ outer => exact setAll_related (List.rel_reverse entries) _ _ outer

end Environment.SameCode

/-- Errors that may differ in their place only. -/
structure EvalError.SameReport (left right : EvalError) : Prop where
  cause : left.cause = right.cause
  message : left.message = right.message
  notes : left.notes = right.notes

theorem EvalError.SameReport.located {left right : EvalError} (same : left.SameReport right) (span place : Span) :
    SameReport (if span.isDummy then left else left.withSpan span)
      (if place.isDummy then right else right.withSpan place) := by
  split_ifs <;> exact ⟨same.cause, same.message, same.notes⟩

namespace Pairing

/-- Runs of the same code, whatever the spans. -/
def upToSpans : Pairing where
  values := Value.Congruent .upToSpans
  closures := Closure.SameCode (Value.Congruent .upToSpans)
  envs := Environment.SameCode
  programs := Program.SameCode
  errors := EvalError.SameReport
  spans _ _ := True
  inside _ _ := True
  gaps := True

theorem upToSpans_entered (session other : Session) (left right : Closure Value) (args others : List Value)
    (same : left.SameCode (Value.Congruent .upToSpans) right)
    (values : List.Forall₂ (Value.Congruent .upToSpans) args others) :
    (session.entering left args).env.SameCode (other.entering right others).env := by
  have captured : (Environment.ofCaptures left.captures).SameCode (.ofCaptures right.captures) := ⟨.nil, same.captures⟩
  have params := zip_fieldMatch _ left.params args others values
  unfold Session.entering
  dsimp only
  rw [← same.name, ← same.params]
  split
  next => exact captured.inScope params
  next => exact (captured.define left.name (.intro (.function same))).inScope params

theorem upToSpans_laws : upToSpans.Laws where
  correspondence start := Closure.Comparison.upToSpans.correspondence _ _ _ _ (fun _ _ together => together.1.interner)
    fun _ _ together => together.1.env.lookup?
  variants start other same enumId layout code variant left right registered coded arity related :=
    .intro (.tag _ related)
  tables left right same := same.tables
  expr left right id same _ := by
    have read := same.expr id
    generalize left.arena.expr? id = first at read ⊢
    generalize right.arena.expr? id = second at read ⊢
    cases read with
    | none => exact .none
    | some kind => exact .some ⟨kind, trivial⟩
  present _ _ _ _ _ := .inl trivial
  readable _ _ _ _ _ _ _ := .inl trivial
  children _ _ _ _ _ _ _ _ _ := trivial
  inScope _ _ _ _ same bound := same.inScope bound
  captured left right env other name params body number same _ envs :=
    .intro (.function ⟨rfl, rfl, rfl, same, rfl, envs.capture⟩)
  callee left right same := ⟨same.body, same.program, trivial⟩
  entered := upToSpans_entered
  raised _ := ⟨rfl, rfl, rfl⟩
  noted _ _ _ _ := ⟨rfl, rfl, rfl⟩
  located error other span place same _ := same.located span place

end Pairing

/-- Outcomes with values that are the same up to spans, or errors that differ in their place at most, and with the
same count of calls and the same names. -/
def Outcome.SameReport : Outcome → Outcome → Prop :=
  Outcome.Paired True fun final last => OutcomePair EvalError.SameReport (Value.Congruent .upToSpans) final.1 last.1 ∧
    final.2.calls = last.2.calls ∧ final.2.interner = last.2.interner

/-- Sessions that are the same up to the spans of their programs, and of the programs of all functions in them,
evaluate an expression to the same report. -/
theorem Session.eval_up_to_spans (left right : Session) (abreast : left.Abreast .upToSpans right) (id : ExprId)
    (fuel : Nat) : (left.eval fuel id).SameReport (right.eval fuel id) := by
  have paired := Pairing.upToSpans_laws.run (.part id) left right abreast trivial fuel
  exact paired.imp fun _ _ ended => ⟨ended.outcome, ended.calls, ended.interner⟩

/-- A function of another program fails in its body, which has a place of its own or leaves that to the call. -/
theorem Session.eval_up_to_spans_moved :
    let session (inner outer : Span) : Session :=
      let callee : Program := ⟨1, { Arena.empty with exprs := #[⟨.ident ⟨8⟩, inner⟩] }⟩
      let caller : Program := ⟨0, { Arena.empty with exprs := #[⟨.ident ⟨7⟩, outer⟩, ⟨.call ⟨0⟩ ⟨0, 0⟩, outer⟩] }⟩
      .new .new caller (.ofScopes [[(⟨7⟩, .function ⟨.empty, [], ⟨0⟩, .empty, callee, 0⟩)]]) .testRun 0
    let left := session ⟨5, 6⟩ ⟨0, 9⟩
    let right := session .dummy ⟨12, 21⟩
    left.Abreast .upToSpans right ∧ ∃ error after other final,
      left.eval 9 ⟨1⟩ = .finished (.error error) after ∧ right.eval 9 ⟨1⟩ = .finished (.error other) final ∧
        error.SameReport other ∧ error.span = some ⟨5, 6⟩ ∧ other.span = some ⟨12, 21⟩ := by
  intro session left right
  have callers : left.program.SameCode right.program := ⟨rfl, rfl, by simp [left, right, session, Session.new]⟩
  have bound : Scope.SameCode left.env.globals right.env.globals :=
    .cons ⟨rfl, .intro (.function ⟨rfl, rfl, rfl, ⟨rfl, rfl, by simp⟩, rfl, .nil⟩)⟩ .nil
  have abreast : left.Abreast .upToSpans right := ⟨rfl, callers, ⟨.nil, bound⟩, rfl, rfl, rfl, rfl⟩
  have reports := left.eval_up_to_spans right abreast ⟨1⟩ 9
  refine ⟨abreast, _, _, _, _, rfl, rfl, ?_, rfl, rfl⟩
  cases reports with
  | finished ended =>
    cases ended.1 with
    | error same => exact same

end TagLang

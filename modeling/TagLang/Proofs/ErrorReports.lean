import TagLang.Proofs.ErrorPropagation
import TagLang.Proofs.HereditaryValues

/-! What an error tells. An error that leaves an evaluation is worded by its cause, has a note only if it is about an
argument, and stands at an expression of the session's program or of a function in play. An expression that has a
place leaves no error without one. -/

namespace TagLang

namespace Value

/-- Whether a value is another one or stands inside it, however deep. -/
inductive Within : Value → Value → Prop
  | self (value : Value) : Within value value
  | inside {inner part value : Value} (member : part ∈ value.constituents) (within : Within inner part) :
      Within inner value

theorem throughout_of_within {condition : Value → Prop} (value : Value)
    (all : ∀ inner, inner.Within value → condition inner) : value.Throughout condition := by
  induction value using constituents_induction with
  | step value deeper =>
    refine .intro value (all value (.self value)) ?_
    intro part member
    exact deeper part member fun inner within => all inner (.inside member within)

end Value

namespace Session

/-- The programs in play: the one that runs, and those of all functions in the bindings. -/
def InPlay (session : Session) (program : Program) : Prop :=
  program = session.program ∨ ∃ scope ∈ session.env.scopes, ∃ binding ∈ scope.entries, ∃ closure : Closure Value,
    (Value.function closure).Within binding.2 ∧ closure.program = program

/-- The places of the expressions in play. -/
def Covers (session : Session) (span : Span) : Prop :=
  ∃ program, session.InPlay program ∧ ∃ expr ∈ program.arena.exprs, expr.span = span

theorem inPlay_holds (session : Session) : session.env.All (Demand.ofPrograms session.InPlay).Holds := by
  intro scope member binding bound
  apply Value.throughout_of_within
  intro inner within
  cases inner with
  | function closure => exact ⟨.inr ⟨scope, member, binding, bound, closure, within, rfl⟩, trivial⟩
  | _ => trivial

end Session

/-- Errors that are worded by their cause, with at most one note, which is about an argument of a wrong type, and
with a real place among the given ones, if with any. -/
structure EvalError.Reports (places : Span → Prop) (error : EvalError) : Prop where
  message : error.message = error.cause.message
  notes : error.notes = [] ∨ ∃ note expected got, error.notes = [note] ∧ note.AboutArgument ∧
    error.cause = .typeMismatch expected got
  place : ∀ span, error.span = some span → span ≠ .dummy ∧ places span

namespace EvalError.Reports

variable {places : Span → Prop}

theorem of (cause : ErrorCause) : Reports places (.of cause) where
  message := rfl
  notes := .inl rfl
  place _ found := nomatch found

theorem noted (expected got : String) (note : ErrorNote) (about : note.AboutArgument) :
    Reports places ((EvalError.of (.typeMismatch expected got)).withNote note) where
  message := rfl
  notes := .inr ⟨note, expected, got, rfl, about, rfl⟩
  place _ found := nomatch found

theorem located {error : EvalError} (reports : error.Reports places) (span : Span) (known : places span) :
    Reports places (if span.isDummy then error else error.withSpan span) := by
  split
  next => exact reports
  next real =>
    refine ⟨reports.message, reports.notes, ?_⟩
    intro place found
    rcases Option.or_eq_some_iff.mp found with earlier | ⟨_, here⟩
    · exact reports.place place earlier
    · obtain rfl := Option.some.inj here
      exact ⟨by simpa [Span.isDummy] using real, known⟩

end EvalError.Reports

namespace Demand

variable {demand : Demand} {gaps : Prop}

/-- A run beside itself over values that meet a demand, whose expressions stand at given places and whose errors
report these. -/
def reporting (demand : Demand) (gaps : Prop) (places : Span → Prop) : Pairing :=
  { demand.pairing gaps with
    errors := fun left right => left = right ∧ left.Reports places
    spans := fun left right => left = right ∧ places left }

theorem Laws.reporting (laws : demand.Laws gaps) (places : Span → Prop)
    (known : ∀ program id expr, demand.program program → program.arena.expr? id = some expr → places expr.span) :
    (demand.reporting gaps places).Laws :=
  -- Errors and spans are all that differs from the demand's own pairing.
  { laws.pairing with
    correspondence := fun start =>
      { laws.correspondence start with
        interner := fun _ _ together => together.1.interner
        lookup := fun left right together name => envs_lookup? gaps left.env right.env together.1.env name }
    variants := laws.pairing.variants
    expr := by
      rintro program _ id ⟨rfl, met⟩ _
      cases found : program.arena.expr? id with
      | none => exact .none
      | some expr => exact .some ⟨rfl, rfl, known program id expr met found⟩
    raised := fun cause => ⟨rfl, .of cause⟩
    noted := fun expected got note about => ⟨rfl, .noted expected got note about⟩
    located := by
      rintro error _ span _ ⟨rfl, reports⟩ ⟨rfl, known⟩
      exact ⟨rfl, reports.located span known⟩ }

end Demand

namespace Session

theorem eval_reports (session : Session) (id : ExprId) (fuel : Nat) (error : EvalError) (after : Session)
    (finished : session.eval fuel id = .finished (.error error) after) : error.Reports session.Covers := by
  have laws := (Demand.ofPrograms_laws session.InPlay).reporting session.Covers fun program id expr inPlay found =>
    ⟨program, inPlay, expr, Array.mem_of_getElem? found, rfl⟩
  have abreast : session.Abreast ((Demand.ofPrograms session.InPlay).reporting True session.Covers) session :=
    ⟨rfl, ⟨rfl, .inl rfl⟩, ⟨rfl, session.inPlay_holds⟩, rfl, rfl, rfl, rfl⟩
  have paired := laws.run (.part id) session session abreast trivial fuel
  change Outcome.Paired _ _ (session.eval fuel id) (session.eval fuel id) at paired
  rw [finished] at paired
  cases paired with
  | finished ended =>
    cases ended.outcome with
    | error related => exact related.2

open Evaluation in
theorem eval_located (session : Session) (id : ExprId) (fuel : Nat) (error : EvalError) (after : Session)
    (finished : session.eval fuel id = .finished (.error error) after) (expr : Expr)
    (found : session.program.arena.expr? id = some expr) (real : expr.span ≠ .dummy) : error.span.isSome := by
  have reached := Plan.run_reaches (fun _ _ _ _ => True) (fun _ _ _ _ _ => trivial) fuel _ _ after finished
  change Reaches _ (Request.part id).evaluate session _ after at reached
  have evaluated : Reaches (fun _ _ _ _ => True) (locate expr.span (expr.kind.evaluate session.program.arena)) session
      (.error error) after := by
    have read := (reaches_get ..).mp reached
    dsimp only [Request.id] at read
    rw [found] at read
    exact read
  obtain ⟨inner, _, same⟩ := (reaches_locate ..).mp evaluated
  rw [if_neg (by simpa [Span.isDummy] using real)] at same
  cases inner with
  | ok value => cases same
  | error inner =>
    obtain rfl := Except.error.inj same
    simp [EvalError.withSpan]

/-- Every error that leaves an evaluation reports a place in play, and has one if the expression has; and the error of
any expression or function body that fails on the way is carried to the end. -/
theorem eval_errors (session : Session) (id : ExprId) :
    (∀ fuel error after, session.eval fuel id = .finished (.error error) after → error.Reports session.Covers ∧
      ∀ expr, session.program.arena.expr? id = some expr → expr.span ≠ .dummy → error.span.isSome) ∧
    ∀ (request : Request) (entered : Session), (Request.part id).LeadsTo session request entered → ∀ fuel inner after,
      entered.run fuel request.evaluate = .finished (.error inner) after → ∃ outer final enough,
        inner.CarriedBy outer ∧ ∀ fuel, enough ≤ fuel → session.eval fuel id = .finished (.error outer) final := by
  constructor
  · intro fuel error after finished
    exact ⟨session.eval_reports id fuel error after finished, session.eval_located id fuel error after finished⟩
  · intro request entered leads fuel inner after failed
    exact leads.run_fails fuel failed

/-- `[1]:mapWithResult(f)` fails in the body of `f`, which is `1:add([])` of another program. -/
theorem eval_errors_callback :
    let callee : Program := ⟨1, { Arena.empty with
      exprs := #[⟨.int .one, .dummy⟩, ⟨.list ⟨0, 0⟩, .dummy⟩, ⟨.method ⟨0⟩ ⟨7⟩ ⟨0, 1⟩, ⟨5, 14⟩⟩]
      exprLists := #[⟨1⟩] }⟩
    let caller : Program := ⟨0, { Arena.empty with
      exprs := #[⟨.int .one, .dummy⟩, ⟨.list ⟨0, 1⟩, .dummy⟩, ⟨.ident ⟨9⟩, .dummy⟩,
        ⟨.method ⟨1⟩ ⟨8⟩ ⟨1, 1⟩, ⟨20, 40⟩⟩]
      exprLists := #[⟨0⟩, ⟨2⟩] }⟩
    let func : Closure Value := ⟨.empty, [⟨10⟩], ⟨2⟩, .empty, callee, 0⟩
    let session := Session.new ⟨["add", "mapWithResult", "f", "item"], by decide⟩ caller
      (.ofScopes [[(⟨9⟩, .function func)]]) .testRun 0
    let entered := session.charged.entering func [.number .one]
    (∃ error after, session.eval 20 ⟨3⟩ = .finished (.error error) after ∧ error.span = some ⟨5, 14⟩ ∧
      error.notes ≠ [] ∧ error.Reports session.Covers ∧ error.span.isSome) ∧
    (Request.part ⟨3⟩).LeadsTo session (.body ⟨2⟩) entered ∧
    ∃ inner after, entered.run 9 (Request.body ⟨2⟩).evaluate = .finished (.error inner) after ∧
      ∃ outer final enough, inner.CarriedBy outer ∧
        ∀ fuel, enough ≤ fuel → session.eval fuel ⟨3⟩ = .finished (.error outer) final := by
  intro callee caller func session entered
  have items : Plan.Answers (.part ⟨1⟩) session (.ok (.list [.number .one])) session := ⟨9, rfl⟩
  have callback : Plan.Answers (.part ⟨2⟩) session (.ok (.function func)) session := ⟨9, rfl⟩
  have leads : (Request.part ⟨3⟩).LeadsTo session (.body ⟨2⟩) entered :=
    .asks (.inr ⟨_, _, items, .inr ⟨_, _, callback, .inl ⟨rfl, rfl⟩⟩⟩)
  obtain ⟨reports, carries⟩ := session.eval_errors ⟨3⟩
  refine ⟨⟨_, _, rfl, rfl, by decide, ?_⟩, leads, _, _, rfl, carries _ _ leads 9 _ _ rfl⟩
  obtain ⟨report, located⟩ := reports 20 _ _ rfl
  exact ⟨report, located _ rfl (by decide)⟩

end Session

end TagLang

import TagLang.Proofs.PairedRuns

/-! Evaluations side by side. If a pairing has its laws, the evaluation of every expression is paired with itself, so
two runs that start in paired sessions stay in step to their ends. -/

namespace TagLang

/-- Whether a session runs the program of another one in the same mode and as deep in calls. -/
structure Session.OnLevelOf (session start : Session) : Prop where
  program : session.program = start.program
  mode : session.mode = start.mode
  depth : session.depth = start.depth

theorem Session.OnLevelOf.restored {session start after : Session} (level : session.OnLevelOf start)
    (restores : session.Restores after) : after.OnLevelOf start where
  program := restores.program.trans level.program
  mode := restores.mode.trans level.mode
  depth := restores.depth.trans level.depth

namespace Pairing

/-- The correspondence of evaluations that started on the level of a session. -/
def during (p : Pairing) (start : Session) : Correspondence where
  values := p.values
  closures := p.closures
  sessions left right := left.Abreast p right ∧ left.OnLevelOf start
  spans := p.spans
  bodies := p.inside start.program
  gaps := p.gaps

structure Laws (p : Pairing) : Prop where
  correspondence : ∀ start, (p.during start).Laws
  variants : ∀ start other, p.programs start.program other → (p.during start).KeepsVariants start.program.arena
  tables : ∀ left right, p.programs left right → right.arena = { left.arena with exprs := right.arena.exprs }
  expr : ∀ left right id, p.programs left right → p.inside left id →
    Option.Rel (fun expr other => expr.kind = other.kind ∧ p.spans expr.span other.span) (left.arena.expr? id)
      (right.arena.expr? id)
  present : ∀ left right id, p.programs left right → p.inside left id → p.gaps ∨ (left.arena.expr? id).isSome
  readable : ∀ left right id expr, p.programs left right → p.inside left id → left.arena.expr? id = some expr →
    p.gaps ∨ (left.arena.nodeOf? expr.kind).isSome
  children : ∀ left right id expr, p.programs left right → p.inside left id → left.arena.expr? id = some expr →
    ∀ child ∈ expr.kind.parts left.arena ++ expr.kind.body?.toList, p.inside left child
  inScope : ∀ left right bindings others, p.envs left right → List.Forall₂ (FieldMatch p.values) bindings others →
    p.envs (left.push.defineAll bindings) (right.push.defineAll others)
  captured : ∀ left right env other name params body number, p.programs left right → p.inside left body →
    p.envs env other → p.values (.function ⟨name, params, body, env.capture, left, number⟩)
      (.function ⟨name, params, body, other.capture, right, number⟩)
  callee : ∀ left right, p.closures left right →
    left.body = right.body ∧ p.programs left.program right.program ∧ p.inside left.program left.body
  entered : ∀ (session other : Session) left right args others, p.closures left right →
    List.Forall₂ p.values args others → p.envs (session.entering left args).env (other.entering right others).env
  raised : ∀ cause, p.errors (.of cause) (.of cause)
  noted : ∀ expected got note, note.AboutArgument → p.errors
    ((EvalError.of (.typeMismatch expected got)).withNote note)
    ((EvalError.of (.typeMismatch expected got)).withNote note)
  located : ∀ error other span place, p.errors error other → p.spans span place →
    p.errors (if span.isDummy then error else error.withSpan span)
      (if place.isDummy then other else other.withSpan place)

namespace Laws

variable {p : Pairing} {left right : Session}

theorem ordinary (laws : p.Laws) (error : EvalError) (ordinary : error.Ordinary) : p.errors error error := by
  cases ordinary with
  | plain cause free => exact laws.raised cause
  | argument expected got note about => exact laws.noted expected got note about

theorem refused (laws : p.Laws) (session : Session) (error : EvalError) (refused : session.refusal? = some error) :
    p.errors error error := by
  unfold Session.refusal? at refused
  split at refused
  next => exact Option.some.inj refused ▸ laws.raised _
  next =>
    obtain ⟨limit, _, rfl⟩ := Option.map_eq_some_iff.mp refused
    exact laws.raised _

theorem withScope (laws : p.Laws) (abreast : left.Abreast p right) (bindings others : List (Name × Value))
    (bound : List.Forall₂ (FieldMatch p.values) bindings others) :
    (left.withScope bindings).Abreast p (right.withScope others) :=
  { abreast with env := laws.inScope left.env right.env bindings others abreast.env bound }

theorem entering (laws : p.Laws) (abreast : left.Abreast p right) (closure other : Closure Value)
    (args others : List Value) (closures : p.closures closure other) (values : List.Forall₂ p.values args others) :
    (left.entering closure args).Abreast p (right.entering other others) :=
  { abreast with
    program := (laws.callee closure other closures).2.1
    env := laws.entered left right closure other args others closures values
    depth := congrArg (· + 1) abreast.depth }

end Laws

end Pairing

namespace Session.Abreast

variable {p : Pairing} {left right : Session}

theorem charged (abreast : left.Abreast p right) : left.charged.Abreast p right.charged :=
  { abreast with calls := by simp only [Session.charged, abreast.mode, abreast.calls] }

theorem refusal? (abreast : left.Abreast p right) : left.refusal? = right.refusal? := by
  simp only [Session.refusal?, abreast.mode, abreast.calls, abreast.depth]

end Session.Abreast

namespace OutcomePair

theorem located {α β : Type} {p : Pairing} (laws : p.Laws) {results : α → β → Prop} {outcome : Except EvalError α}
    {another : Except EvalError β} (related : OutcomePair p.errors results outcome another) (span place : Span)
    (places : p.spans span place) :
    OutcomePair p.errors results (if span.isDummy then outcome else outcome.mapError (·.withSpan span))
      (if place.isDummy then another else another.mapError (·.withSpan place)) := by
  cases related with
  | ok related =>
    have unchanged {γ : Type} (span : Span) (value : γ) :
        (if span.isDummy then .ok value else (Except.ok value).mapError fun error : EvalError => error.withSpan span) =
          Except.ok value := by
      split <;> rfl
    rw [unchanged, unchanged]
    exact .ok related
  | @error error other related =>
    have moved {γ : Type} (span : Span) (error : EvalError) :
        (if span.isDummy then .error error
          else (Except.error error).mapError fun error : EvalError => error.withSpan span) =
          (Except.error (if span.isDummy then error else error.withSpan span) : Except EvalError γ) := by
      split <;> rfl
    rw [moved, moved]
    exact .error (laws.located error other span place related places)

end OutcomePair

open Evaluation

namespace Evaluation.Matched

variable {p : Pairing} {asks : ExprId → Prop} {asked : Request → Session → Prop}

/-- Evaluations that proceed alike make paired plans, if what they ask for is allowed to be asked. -/
theorem paired (laws : p.Laws) (start : Session)
    (parts : ∀ id, asks id → p.inside start.program id ∧ ∀ session, session.OnLevelOf start → asked (.part id) session)
    (bodies : ∀ (session : Session) (closure : Closure Value) args, session.OnLevelOf start →
      session.charged.refusal? = none → asked (.body closure.body) (session.charged.entering closure args))
    {α β : Type} {results : α → β → Prop} {left : Evaluation α} {right : Evaluation β}
    (matched : Matched (p.during start) asks results left right) (session other : Session)
    (abreast : session.Abreast p other) (level : session.OnLevelOf start) :
    (left.run.run session).Paired p asked (p.Ended results session other) (right.run.run other) := by
  induction matched generalizing session other with
  | returns related => exact .at_once abreast (.ok related)
  | fails error ordinary => exact .at_once abreast (.error (laws.ordinary error ordinary))
  | outOfRange gaps => exact gaps
  | reading rest followed => exact followed session other ⟨abreast, level⟩ session other abreast level
  | part id allowed =>
    obtain ⟨inside, permitted⟩ := parts id allowed
    refine ⟨rfl, ⟨abreast, ?_, permitted session level⟩, ?_⟩
    · rw [level.program]
      exact inside
    · exact fun answer after reply final ended => ended
  | intern s =>
    refine ⟨?_, ⟨rfl, rfl, rfl, rfl, Nat.le_refl _, session.interner.tryIntern_keeps s⟩,
      ⟨rfl, rfl, rfl, rfl, Nat.le_refl _, other.interner.tryIntern_keeps s⟩, ?_, abreast.calls, abreast.nextClosure⟩
    · exact .ok (by rw [abreast.interner])
    · exact congrArg (fun interner => (interner.tryIntern s).2) abreast.interner
  | closure name params body allowed =>
    refine ⟨.ok ?_, ⟨rfl, rfl, rfl, rfl, Nat.le_refl _, .refl _⟩, ⟨rfl, rfl, rfl, rfl, Nat.le_refl _, .refl _⟩,
      abreast.interner, abreast.calls, congrArg (· + 1) abreast.nextClosure⟩
    have inside : p.inside session.program body := by
      rw [level.program]
      exact allowed
    rw [← abreast.nextClosure]
    exact laws.captured _ _ _ _ name params body _ abreast.program inside abreast.env
  | @invoke closure another args others closures arity values =>
    rw [invoke_run, invoke_run, ← abreast.charged.refusal?]
    cases accepted : session.charged.refusal? with
    | some error =>
      have charged := abreast.charged
      exact ⟨.error (laws.refused _ error accepted), session.charged_restores, other.charged_restores,
        charged.interner, charged.calls, charged.nextClosure⟩
    | none =>
      obtain ⟨same, _, inside⟩ := laws.callee closure another closures
      have entered := laws.entering abreast.charged closure another args others closures values
      refine ⟨congrArg Request.body same.symm, ⟨entered, inside, bodies session closure args level accepted⟩, ?_⟩
      intro answer after reply final ended
      exact ⟨ended.outcome,
        session.charged_restores.trans _ _ _ (session.charged.leaving_restores after closure args ended.first),
        other.charged_restores.trans _ _ _ (other.charged.leaving_restores final another others ended.second),
        ended.interner, ended.calls, ended.nextClosure⟩
  | @inScope _ _ _ _ _ bindings others bound body followed =>
    rw [inScope_run, inScope_run]
    have inner := followed _ _ (laws.withScope abreast bindings others bound) ⟨level.program, level.mode, level.depth⟩
    refine .bind _ _ _ _ inner ?_
    intro final last ended
    exact ⟨ended.outcome, session.withScope_restores _ bindings ended.first,
      other.withScope_restores _ others ended.second, ended.interner, ended.calls, ended.nextClosure⟩
  | @locate _ _ _ _ _ span place places inner followed =>
    refine .bind _ _ _ _ (followed session other abreast level) ?_
    intro final last ended
    exact { ended with outcome := ended.outcome.located laws span place places }
  | bind first rest firstFollowed restFollowed =>
    refine .bind _ _ _ _ (firstFollowed session other abreast level) ?_
    rintro ⟨outcome, middle⟩ ⟨another, between⟩ ended
    cases ended.outcome with
    | @ok value result related =>
      have after := ended.abreast abreast
      have later := restFollowed value result related middle between after (level.restored ended.first)
      exact .imp (fun _ _ final => ended.trans final) _ _ later
    | error related => exact { ended with outcome := .error related }

end Evaluation.Matched

private theorem rel_found {α β : Type} {related : α → β → Prop} {left : Option α} {right : Option β}
    (both : Option.Rel related left right) :
    Option.Rel (fun value other => left = some value ∧ related value other) left right := by
  cases both with
  | some same => exact .some ⟨rfl, same⟩
  | none => exact .none

namespace Request

theorem evaluate_paired {p : Pairing} (laws : p.Laws) {asked : Request → Session → Prop} (request : Request)
    (left right : Session) (abreast : left.Abreast p right) (inside : p.inside left.program request.id)
    (parts : ∀ expr, left.program.arena.expr? request.id = some expr → ∀ id ∈ expr.kind.parts left.program.arena,
      ∀ session, session.OnLevelOf left → asked (.part id) session)
    (bodies : ∀ (session : Session) (closure : Closure Value) args, session.OnLevelOf left →
      session.charged.refusal? = none → asked (.body closure.body) (session.charged.entering closure args)) :
    (request.evaluate.run.run left).Paired p asked (p.Ended p.values left right) (request.evaluate.run.run right) := by
  have same := rel_found (laws.expr left.program right.program request.id abreast.program inside)
  have matched : Matched (p.during left)
      (fun id => p.inside left.program id ∧ ∀ session, session.OnLevelOf left → asked (.part id) session) p.values
      (do let expr ← entry (left.program.arena.expr? request.id)
          locate expr.span (expr.kind.evaluate left.program.arena))
      (do let expr ← entry (right.program.arena.expr? request.id)
          locate expr.span (expr.kind.evaluate right.program.arena)) := by
    refine .bind (.entry same (laws.present left.program right.program request.id abreast.program inside)) ?_
    rintro expr ⟨_, place⟩ ⟨found, rfl, places⟩
    have children := laws.children left.program right.program request.id expr abreast.program inside found
    simp only [List.mem_append, or_imp, forall_and, Option.mem_toList] at children
    rw [laws.tables left.program right.program abreast.program]
    refine .locate places (.evaluate (laws.correspondence left) left.program.arena right.program.arena.exprs
      (laws.variants left right.program abreast.program) expr.kind ?_ ?_ children.2)
    · exact laws.readable left.program right.program request.id expr abreast.program inside found
    · exact fun id part => ⟨children.1 id part, parts expr found id part⟩
  exact matched.paired laws left (fun id allowed => allowed) bodies left right abreast ⟨rfl, rfl, rfl⟩

end Request

namespace Pairing.Laws

variable {p : Pairing}

theorem served (laws : p.Laws) (request : Request) (left right : Session)
    (asks : p.Asks (fun _ _ => True) request left right) :
    (request.evaluate.run.run left).Paired p (fun _ _ => True) (p.Ended p.values left right)
      (request.evaluate.run.run right) :=
  request.evaluate_paired laws left right asks.abreast asks.inside (fun _ _ _ _ _ _ => trivial) fun _ _ _ _ _ => trivial

/-- Runs of one request in paired sessions end in the same way, or not at all, with any amount of fuel. -/
theorem run (laws : p.Laws) (request : Request) (left right : Session) (abreast : left.Abreast p right)
    (inside : p.inside left.program request.id) (fuel : Nat) :
    Outcome.Paired p.gaps (p.Ended p.values left right) (left.run fuel request.evaluate)
      (right.run fuel request.evaluate) :=
  Plan.Paired.run laws.served fuel _ _ [] [] (laws.served request left right ⟨abreast, inside, trivial⟩) .nil

end Pairing.Laws

end TagLang

import TagLang.Proofs.EvaluationAnswers

/-! Errors on their way out. No evaluation recovers from the failure of an expression that it asked for: it fails in
turn, with the same error, which may have been given a place. So an error that arises at any depth of a run is the
error with which the run ends. -/

namespace TagLang

/-- Whether an error is the same as another one, except for a place that it has been given on its way. -/
structure EvalError.CarriedBy (inner outer : EvalError) : Prop where
  cause : outer.cause = inner.cause
  message : outer.message = inner.message
  notes : outer.notes = inner.notes
  span : ∀ span, inner.span = some span → outer.span = some span

namespace EvalError.CarriedBy

theorem refl (error : EvalError) : error.CarriedBy error := ⟨rfl, rfl, rfl, fun _ => id⟩

theorem trans {first second third : EvalError} (one : first.CarriedBy second) (two : second.CarriedBy third) :
    first.CarriedBy third where
  cause := two.cause.trans one.cause
  message := two.message.trans one.message
  notes := two.notes.trans one.notes
  span place found := two.span place (one.span place found)

theorem located (error : EvalError) (span : Span) : error.CarriedBy (error.withSpan span) where
  cause := rfl
  message := rfl
  notes := rfl
  span place found := by simp [withSpan, found]

end EvalError.CarriedBy

namespace Plan

variable {α β : Type}

/-- Whether a plan that resumes with an error ends at once, with that error. -/
def HandsOn (resume : Except EvalError α × Session → Plan (Except EvalError β × Session)) : Prop :=
  ∀ error after, ∃ outer final, resume (.error error, after) = done (.error outer, final) ∧ error.CarriedBy outer

/-- Whether a plan fails as soon as one of its requests does, with the error of the request. -/
def Relays : Plan (Except EvalError α × Session) → Prop
  | done _ | outOfRange => True
  | ask _ _ resume => HandsOn (fun given => resume given.1 given.2) ∧ ∀ answer after, (resume answer after).Relays

/-- The second plan needs to relay errors only after what the first can come to. -/
theorem Relays.bind (plan : Plan (Except EvalError α × Session))
    (next : Except EvalError α × Session → Plan (Except EvalError β × Session)) (first : plan.Relays)
    (passes : HandsOn next) (rest : ∀ result, plan.Reaches (fun _ _ _ _ => True) result → (next result).Relays) :
    (plan.bind next).Relays := by
  induction plan with
  | done result => exact rest result rfl
  | outOfRange => trivial
  | ask request session resume resumed =>
    obtain ⟨ends, relays⟩ := first
    constructor
    · intro error after
      obtain ⟨middle, between, ended, carried⟩ := ends error after
      obtain ⟨outer, final, passed, further⟩ := passes middle between
      refine ⟨outer, final, ?_, carried.trans further⟩
      dsimp only at ended ⊢
      rw [ended]
      exact passed
    · intro answer after
      refine resumed answer after (relays answer after) fun result reached => ?_
      exact rest result ⟨answer, after, trivial, reached⟩

end Plan

open Evaluation

/-- Evaluations are made of actions that do not recover from errors. -/
theorem Evaluation.Matched.relays {α β : Type} {results : α → β → Prop} {asks : ExprId → Prop} {left : Evaluation α}
    {right : Evaluation β} (matched : Matched .identity asks results left right) (session : Session) :
    (left.run.run session).Relays := by
  induction matched generalizing session with
  | returns | fails | outOfRange | intern | closure => trivial
  | reading rest relayed => exact relayed session session ⟨rfl, rfl, rfl⟩ session
  | part id allowed => exact ⟨fun error after => ⟨error, after, rfl, .refl error⟩, fun _ _ => trivial⟩
  | @invoke closure _ args _ closures arity values =>
    rw [invoke_run]
    cases session.charged.refusal? with
    | some error => trivial
    | none => exact ⟨fun error after => ⟨error, after.leaving session.charged, rfl, .refl error⟩, fun _ _ => trivial⟩
  | @inScope _ _ _ _ _ bindings _ bound body relayed =>
    rw [inScope_run]
    refine .bind _ _ (relayed _) ?_ fun _ _ => trivial
    exact fun error after => ⟨error, { after with env := after.env.pop }, rfl, .refl error⟩
  | @locate _ _ _ _ _ span _ places inner relayed =>
    refine .bind _ _ (relayed session) ?_ fun _ _ => trivial
    intro error after
    by_cases dummy : span.isDummy
    · exact ⟨error, after, by simp only [dummy]; rfl, .refl error⟩
    · exact ⟨error.withSpan span, after, by simp only [dummy]; rfl, .located error span⟩
  | bind first rest firstRelayed restRelayed =>
    refine .bind _ _ (firstRelayed session) (fun error after => ⟨error, after, rfl, .refl error⟩) ?_
    intro ⟨outcome, after⟩ reached
    cases outcome with
    | ok value =>
      obtain ⟨other, related⟩ := first.counterpart _ session value after reached
      exact restRelayed value other related after
    | error error => trivial

namespace Plan

/-- Whether a plan comes to make a request, over the answers that runs give to those before it. -/
def ComesTo {α : Type} (request : Request) (entered : Session) : Plan α → Prop
  | done _ | outOfRange => False
  | ask first session resume =>
    first = request ∧ session = entered ∨
      ∃ answer after, Answers first session answer after ∧ (resume answer after).ComesTo request entered

/-- A plan that relays fails with the error of a request that it comes to. -/
theorem Relays.fails {plan : Plan (Except EvalError Value × Session)} (relays : plan.Relays) {request : Request}
    {entered after : Session} {inner : EvalError} (comes : plan.ComesTo request entered)
    (failed : Answers request entered (.error inner) after) :
    ∃ outer final, plan.Reaches Answers (.error outer, final) ∧ inner.CarriedBy outer := by
  induction plan with
  | done result => cases comes
  | outOfRange => cases comes
  | ask first session resume resumed =>
    rcases comes with ⟨rfl, rfl⟩ | ⟨answer, middle, answered, later⟩
    · obtain ⟨outer, final, ended, carried⟩ := relays.1 inner after
      refine ⟨outer, final, ⟨.error inner, after, failed, ?_⟩, carried⟩
      dsimp only at ended
      rw [ended]
      rfl
    · obtain ⟨outer, final, reached, carried⟩ := resumed answer middle (relays.2 answer middle) later
      exact ⟨outer, final, ⟨answer, middle, answered, reached⟩, carried⟩

end Plan

/-- Whether the run of a request in a session comes to another request in a session of its own: for a part of an
expression or for the body of a called function, directly or at any depth. -/
inductive Request.LeadsTo : Request → Session → Request → Session → Prop
  | asks {request asked : Request} {session entered : Session}
      (comes : (request.evaluate.run.run session).ComesTo asked entered) : LeadsTo request session asked entered
  | through {request middle asked : Request} {session between entered : Session}
      (comes : (request.evaluate.run.run session).ComesTo middle between)
      (later : LeadsTo middle between asked entered) : LeadsTo request session asked entered

namespace Request.LeadsTo

variable {request asked : Request} {session entered after : Session} {inner : EvalError}

theorem fails (leads : request.LeadsTo session asked entered)
    (failed : Plan.Answers asked entered (.error inner) after) :
    ∃ outer final, (request.evaluate.run.run session).Reaches Plan.Answers (.error outer, final) ∧
      inner.CarriedBy outer := by
  induction leads with
  | @asks request asked session entered comes => exact (request.evaluate_matched.relays session).fails comes failed
  | @through request middle asked session between entered comes later failing =>
    -- What is asked for on the way fails first, so its failure is an answer to the request above it.
    obtain ⟨error, final, reached, carried⟩ := failing failed
    obtain ⟨enough, ends⟩ := Plan.reaches_run _ _ final reached
    have answered : Plan.Answers middle between (.error error) final := ⟨enough, ends enough (Nat.le_refl _)⟩
    obtain ⟨outer, last, passed, further⟩ := (request.evaluate_matched.relays session).fails comes answered
    exact ⟨outer, last, passed, carried.trans further⟩

/-- An error that arises anywhere in a run is the error that the run ends with, given enough fuel. -/
theorem run_fails (leads : request.LeadsTo session asked entered) (fuel : Nat)
    (failed : entered.run fuel asked.evaluate = .finished (.error inner) after) :
    ∃ outer final enough, inner.CarriedBy outer ∧
      ∀ fuel, enough ≤ fuel → session.run fuel request.evaluate = .finished (.error outer) final := by
  obtain ⟨outer, final, reached, carried⟩ := leads.fails ⟨fuel, failed⟩
  obtain ⟨enough, ends⟩ := Plan.reaches_run _ _ final reached
  exact ⟨outer, final, enough, carried, ends⟩

end Request.LeadsTo

end TagLang

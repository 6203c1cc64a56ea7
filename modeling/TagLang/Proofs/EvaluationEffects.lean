import TagLang.Proofs.EvaluationAnswers

/-! Effects: relations between the sessions before and after an evaluation that the actions of evaluations keep.
Such a relation holds around every evaluation and every call, however they end. -/

namespace TagLang

/-- A relation between the sessions before and after an evaluation, given the error it ended with. -/
abbrev Effect := Session → Option EvalError → Session → Prop

def failure? {α : Type} : Except EvalError α → Option EvalError
  | .ok _ => none
  | .error error => some error

theorem failure?_eq_some_iff {α : Type} (outcome : Except EvalError α) (error : EvalError) :
    failure? outcome = some error ↔ outcome = .error error := by
  cases outcome with
  | ok value => simp [failure?]
  | error other => simp [failure?]

structure Effect.Laws (effect : Effect) : Prop where
  done : ∀ session, effect session none session
  failed : ∀ session error, error.Ordinary → effect session (some error) session
  intern : ∀ session s, effect session none { session with interner := (session.interner.tryIntern s).2 }
  closure : ∀ session, effect session none { session with nextClosure := session.nextClosure + 1 }
  refused : ∀ session error, session.charged.refusal? = some error → effect session (some error) session.charged
  called : ∀ session closure args error? inner, session.charged.refusal? = none →
    effect (session.charged.entering closure args) error? inner →
      effect session error? (inner.leaving session.charged)
  inScope : ∀ session bindings error? inner, effect (session.withScope bindings) error? inner →
    effect session error? { inner with env := inner.env.pop }
  located : ∀ session error span after, effect session (some error) after →
    effect session (some (error.withSpan span)) after
  trans : ∀ first second third error?, effect first none second → effect second error? third →
    effect first error? third

def Effect.answering (effect : Effect) : Answering := fun _ session answer after =>
  effect session (failure? answer) after

open Evaluation

namespace Evaluation.Matched

theorem effect {effect : Effect} (laws : effect.Laws) {α β : Type} {results : α → β → Prop} {asks : ExprId → Prop}
    {left : Evaluation α} {right : Evaluation β} (matched : Matched .identity asks results left right)
    (session : Session) (outcome : Except EvalError α) (after : Session)
    (reached : left.Reaches effect.answering session outcome after) : effect session (failure? outcome) after := by
  induction matched generalizing session after with
  | returns related =>
    obtain ⟨rfl, rfl⟩ := (reaches_pure ..).mp reached
    exact laws.done after
  | fails error ordinary =>
    obtain ⟨rfl, rfl⟩ := (reaches_throw ..).mp reached
    exact laws.failed after error ordinary
  | outOfRange gaps => exact absurd reached (reaches_outOfRange _ _ _ _)
  | reading rest followed =>
    exact followed session session ⟨rfl, rfl, rfl⟩ session outcome after ((reaches_get ..).mp reached)
  | part id allowed => exact (reaches_ask ..).mp reached
  | intern s =>
    obtain ⟨rfl, rfl⟩ := (reaches_intern ..).mp reached
    exact laws.intern session s
  | closure name params body allowed =>
    obtain ⟨rfl, rfl⟩ := (reaches_closure ..).mp reached
    exact laws.closure session
  | invoke closures arity values =>
    rcases (reaches_invoke ..).mp reached with ⟨error, refused, rfl, rfl⟩ | ⟨accepted, inner, body, rfl⟩
    · exact laws.refused session error refused
    · exact laws.called session _ _ _ inner accepted body
  | inScope bound body followed =>
    obtain ⟨middle, inner, rfl⟩ := (reaches_inScope ..).mp reached
    exact laws.inScope session _ _ middle (followed _ outcome middle inner)
  | @locate _ _ _ _ _ span _ places inner followed =>
    obtain ⟨found, evaluated, rfl⟩ := (reaches_locate ..).mp reached
    have held := followed session found after evaluated
    split
    next => exact held
    next =>
      cases found with
      | ok value => exact held
      | error error => exact laws.located session error span after held
  | bind first rest firstFollowed restFollowed =>
    rcases (reaches_bind ..).mp reached with ⟨value, middle, before, later⟩ | ⟨error, failed, rfl⟩
    · obtain ⟨other, related⟩ := first.counterpart effect.answering session value middle before
      have one := firstFollowed session (.ok value) middle before
      have two := restFollowed value other related middle outcome after later
      exact laws.trans session middle after _ one two
    · exact firstFollowed session (.error error) after failed

end Evaluation.Matched

namespace Effect.Laws

variable {effect : Effect}

theorem sound (laws : effect.Laws) : Plan.Answering.Sound effect.answering :=
  fun request session answer after reached => request.evaluate_matched.effect laws session answer after reached

theorem run (laws : effect.Laws) (session : Session) (fuel : Nat) (evaluation : Evaluation Value)
    (matched : Matched .identity (fun _ => True) Eq evaluation evaluation) (result : Except EvalError Value)
    (after : Session) (finished : session.run fuel evaluation = .finished result after) :
    effect session (failure? result) after := by
  have reached := Plan.run_reaches effect.answering laws.sound fuel _ result after finished
  exact matched.effect laws session result after reached

theorem eval (laws : effect.Laws) (session : Session) (fuel : Nat) (id : ExprId) (result : Except EvalError Value)
    (after : Session) (finished : session.eval fuel id = .finished result after) :
    effect session (failure? result) after :=
  laws.run session fuel _ (Request.part id).evaluate_matched result after finished

theorem call (laws : effect.Laws) (session : Session) (fuel : Nat) (func : Value) (args : List Value)
    (result : Except EvalError Value) (after : Session)
    (finished : session.call fuel func args = .finished result after) : effect session (failure? result) after :=
  laws.run session fuel _ (Evaluation.call_matched func args) result after finished

end Effect.Laws

end TagLang

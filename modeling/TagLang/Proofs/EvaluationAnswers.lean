import TagLang.Proofs.MatchedEvaluation
import TagLang.Proofs.RunAnswers

/-! What each action of an evaluation comes to, over the answers that its requests may get. -/

namespace TagLang

namespace Session

def charged (session : Session) : Session := { session with calls := session.mode.countCall session.calls }

/-- Why a counted call is refused, if it is. -/
def refusal? (session : Session) : Option EvalError :=
  match session.mode.exceeded? session.calls with
  | some budget => some (.of (.budgetExceeded budget))
  | none => (session.mode.depthLimit?.filter (· ≤ session.depth)).map fun limit => .of (.recursionLimit limit)

theorem refusal?_eq_none_iff (session : Session) :
    session.refusal? = none ↔ (∀ budget, session.mode.budget? = some budget → session.calls ≤ budget) ∧
      ∀ limit, session.mode.depthLimit? = some limit → session.depth < limit := by
  have counted : session.mode.exceeded? session.calls = none ↔
      ∀ budget, session.mode.budget? = some budget → session.calls ≤ budget := by
    simp only [Mode.exceeded?, Option.filter_eq_none_iff, decide_eq_true_eq, Nat.not_lt]
  have nested : session.mode.depthLimit?.filter (· ≤ session.depth) = none ↔
      ∀ limit, session.mode.depthLimit? = some limit → session.depth < limit := by
    simp only [Option.filter_eq_none_iff, decide_eq_true_eq, Nat.not_le]
  rw [← counted, ← nested]
  unfold refusal?
  cases session.mode.exceeded? session.calls with
  | none => simp only [Option.map_eq_none_iff, true_and]
  | some budget => simp only [reduceCtorEq, false_and]

theorem refusal?_isLimit (session : Session) (error : EvalError) (refused : session.refusal? = some error) :
    error.cause.isLimit = true := by
  unfold refusal? at refused
  split at refused
  next => cases refused; rfl
  next =>
    obtain ⟨limit, _, rfl⟩ := Option.map_eq_some_iff.mp refused
    rfl

def withScope (session : Session) (bindings : List (Name × Value)) : Session :=
  { session with env := session.env.push.defineAll bindings }

end Session

namespace Evaluation

variable {α β : Type}

/-- Whether an evaluation comes to an outcome when its requests are answered as allowed. -/
def Reaches (answering : Answering) (evaluation : Evaluation α) (session : Session) (outcome : Except EvalError α)
    (after : Session) : Prop :=
  (evaluation.run.run session).Reaches answering (outcome, after)

variable (answering : Answering) (session after : Session)

theorem reaches_pure (value : α) (outcome : Except EvalError α) :
    Reaches answering (pure value) session outcome after ↔ outcome = .ok value ∧ after = session :=
  Plan.reaches_done ..

theorem reaches_throw (error : EvalError) (outcome : Except EvalError α) :
    Reaches answering (throw error) session outcome after ↔ outcome = .error error ∧ after = session :=
  Plan.reaches_done ..

theorem reaches_outOfRange (outcome : Except EvalError α) : ¬ Reaches answering outOfRange session outcome after :=
  id

theorem reaches_get (next : Session → Evaluation α) (outcome : Except EvalError α) :
    Reaches answering (get >>= next) session outcome after ↔ Reaches answering (next session) session outcome after :=
  Iff.rfl

theorem reaches_ask (request : Request) (outcome : Except EvalError Value) :
    Reaches answering (ask request) session outcome after ↔ answering request session outcome after := by
  constructor
  · rintro ⟨answer, middle, allowed, same⟩
    obtain ⟨rfl, rfl⟩ := (Plan.reaches_done ..).mp same
    exact allowed
  · exact fun allowed => ⟨outcome, after, allowed, rfl⟩

theorem reaches_bind (evaluation : Evaluation α) (next : α → Evaluation β) (outcome : Except EvalError β) :
    Reaches answering (evaluation >>= next) session outcome after ↔
      (∃ value middle, Reaches answering evaluation session (.ok value) middle ∧
        Reaches answering (next value) middle outcome after) ∨
      ∃ error, Reaches answering evaluation session (.error error) after ∧ outcome = .error error := by
  constructor
  · intro reached
    obtain ⟨⟨first, middle⟩, before, rest⟩ := (Plan.reaches_bind answering _ _ _).mp reached
    cases first with
    | ok value => exact .inl ⟨value, middle, before, rest⟩
    | error error =>
      obtain ⟨rfl, rfl⟩ := (Plan.reaches_done ..).mp rest
      exact .inr ⟨error, before, rfl⟩
  · intro split
    apply (Plan.reaches_bind answering _ _ _).mpr
    rcases split with ⟨value, middle, first, rest⟩ | ⟨error, failed, rfl⟩
    · exact ⟨(.ok value, middle), first, rest⟩
    · exact ⟨(.error error, after), failed, rfl⟩

theorem reaches_locate (span : Span) (evaluation : Evaluation α) (outcome : Except EvalError α) :
    Reaches answering (locate span evaluation) session outcome after ↔
      ∃ inner, Reaches answering evaluation session inner after ∧
        outcome = if span.isDummy then inner else inner.mapError (·.withSpan span) := by
  constructor
  · intro reached
    obtain ⟨⟨inner, middle⟩, before, rest⟩ := (Plan.reaches_bind answering _ _ _).mp reached
    obtain ⟨same, rfl⟩ := (Plan.reaches_done ..).mp rest
    exact ⟨inner, before, same⟩
  · rintro ⟨inner, before, rfl⟩
    exact (Plan.reaches_bind answering _ _ _).mpr ⟨(inner, after), before, rfl⟩

theorem inScope_run (bindings : List (Name × Value)) (evaluation : Evaluation α) :
    (inScope bindings evaluation).run.run session =
      (evaluation.run.run (session.withScope bindings)).bind fun (outcome, middle) =>
        .done (outcome, { middle with env := middle.env.pop }) :=
  rfl

theorem reaches_inScope (bindings : List (Name × Value)) (evaluation : Evaluation α)
    (outcome : Except EvalError α) :
    Reaches answering (inScope bindings evaluation) session outcome after ↔
      ∃ middle, Reaches answering evaluation (session.withScope bindings) outcome middle ∧
        after = { middle with env := middle.env.pop } := by
  unfold Reaches
  rw [inScope_run, Plan.reaches_bind]
  constructor
  · rintro ⟨⟨inner, middle⟩, before, rest⟩
    obtain ⟨rfl, rfl⟩ := (Plan.reaches_done ..).mp rest
    exact ⟨middle, before, rfl⟩
  · rintro ⟨middle, before, rfl⟩
    exact ⟨(outcome, middle), before, rfl⟩

theorem reaches_intern (s : String) (outcome : Except EvalError (Except InternError Name)) :
    Reaches answering (intern s) session outcome after ↔
      outcome = .ok (session.interner.tryIntern s).1 ∧
        after = { session with interner := (session.interner.tryIntern s).2 } :=
  Plan.reaches_done ..

theorem reaches_closure (name : Name) (params : List Name) (body : ExprId) (outcome : Except EvalError Value) :
    Reaches answering (closure name params body) session outcome after ↔
      outcome = .ok (.function ⟨name, params, body, session.env.capture, session.program, session.nextClosure⟩) ∧
        after = { session with nextClosure := session.nextClosure + 1 } :=
  Plan.reaches_done ..

theorem chargeCall_run :
    chargeCall.run.run session =
      .done (match session.charged.refusal? with
        | some error => .error error
        | none => .ok (), session.charged) := by
  change ((match session.charged.mode.exceeded? session.charged.calls with
    | some budget => throw (.of (.budgetExceeded budget))
    | none =>
      match session.charged.mode.depthLimit? with
      | some limit => if limit ≤ session.charged.depth then throw (.of (.recursionLimit limit)) else pure ()
      | none => pure () : Evaluation Unit).run.run session.charged) = _
  unfold Session.refusal?
  cases session.charged.mode.exceeded? session.charged.calls with
  | some budget => rfl
  | none =>
    cases session.charged.mode.depthLimit? with
    | none => rfl
    | some limit =>
      by_cases deep : limit ≤ session.charged.depth
      · simp only [deep, if_true, Option.filter_some, decide_true, Option.map_some]
        rfl
      · simp only [deep, if_false, Option.filter_some, decide_false, Bool.false_eq_true, Option.map_none]
        rfl

theorem invoke_run (closure : Closure Value) (args : List Value) :
    (invoke closure args).run.run session =
      match session.charged.refusal? with
      | some error => .done (.error error, session.charged)
      | none =>
        .ask (.body closure.body) (session.charged.entering closure args) fun answer inner =>
          .done (answer, inner.leaving session.charged) := by
  change (chargeCall.run.run session).bind _ = _
  rw [chargeCall_run]
  cases session.charged.refusal? with
  | some error => rfl
  | none => rfl

theorem reaches_invoke (closure : Closure Value) (args : List Value) (outcome : Except EvalError Value) :
    Reaches answering (invoke closure args) session outcome after ↔
      (∃ error, session.charged.refusal? = some error ∧ outcome = .error error ∧ after = session.charged) ∨
      session.charged.refusal? = none ∧ ∃ inner,
        answering (.body closure.body) (session.charged.entering closure args) outcome inner ∧
          after = inner.leaving session.charged := by
  unfold Reaches
  rw [invoke_run]
  cases session.charged.refusal? with
  | some error =>
    rw [Plan.reaches_done]
    simp
  | none =>
    constructor
    · rintro ⟨answer, inner, allowed, same⟩
      obtain ⟨rfl, rfl⟩ := (Plan.reaches_done ..).mp same
      exact .inr ⟨rfl, inner, allowed, rfl⟩
    · rintro (⟨_, impossible, _⟩ | ⟨_, inner, allowed, rfl⟩)
      · cases impossible
      · exact ⟨outcome, inner, allowed, rfl⟩

/-- What an evaluation returns has a counterpart in every evaluation that it matches. -/
theorem Matched.counterpart {results : α → β → Prop} {asks : ExprId → Prop} {left : Evaluation α}
    {right : Evaluation β} (matched : Matched .identity asks results left right) (answering : Answering)
    (session : Session) (value : α) (after : Session) (reached : left.Reaches answering session (.ok value) after) :
    ∃ other, results value other := by
  induction matched generalizing session after with
  | @returns _ _ _ left right related =>
    obtain ⟨same, _⟩ := (reaches_pure ..).mp reached
    exact ⟨right, Except.ok.inj same ▸ related⟩
  | fails error ordinary => cases ((reaches_throw ..).mp reached).1
  | outOfRange gaps => exact absurd reached (reaches_outOfRange _ _ _ _)
  | reading rest returned =>
    exact returned session session ⟨rfl, rfl, rfl⟩ session value after ((reaches_get ..).mp reached)
  | part | intern | closure | invoke => exact ⟨value, rfl⟩
  | inScope bound body returned =>
    obtain ⟨middle, inner, _⟩ := (reaches_inScope ..).mp reached
    exact returned _ value middle inner
  | locate places inner returned =>
    obtain ⟨outcome, found, same⟩ := (reaches_locate ..).mp reached
    cases outcome with
    | ok result =>
      obtain rfl : value = result := by split at same <;> exact Except.ok.inj same
      exact returned session value after found
    | error error => split at same <;> cases same
  | bind first rest firstReturned restReturned =>
    rcases (reaches_bind ..).mp reached with ⟨result, middle, before, later⟩ | ⟨error, _, impossible⟩
    · obtain ⟨other, related⟩ := firstReturned session result middle before
      exact restReturned result other related middle value after later
    · cases impossible

end Evaluation

end TagLang

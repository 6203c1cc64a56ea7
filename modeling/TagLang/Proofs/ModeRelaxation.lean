import TagLang.Proofs.EvaluationAnswers

/-! Bounded runs against less bounded ones. A run that ends without going beyond its bounds ends with the same
result under every mode that bounds it no more. -/

namespace TagLang

structure Mode.Relaxes (lax strict : Mode) : Prop where
  budget : ∀ larger, lax.budget? = some larger → ∃ budget, strict.budget? = some budget ∧ budget ≤ larger
  depth : ∀ larger, lax.depthLimit? = some larger → ∃ limit, strict.depthLimit? = some limit ∧ limit ≤ larger

theorem Mode.interpret_relaxes (strict : Mode) : Mode.interpret.Relaxes strict :=
  ⟨fun _ impossible => (nomatch impossible), fun _ impossible => (nomatch impossible)⟩

theorem Mode.constEval_relaxes (budget larger : Nat) (bound : budget ≤ larger) :
    (Mode.constEval larger).Relaxes (.constEval budget) := by
  constructor
  · rintro _ ⟨⟩
    exact ⟨budget, rfl, bound⟩
  · rintro _ ⟨⟩
    exact ⟨64, rfl, Nat.le_refl _⟩

namespace Session

/-- Sessions that differ in their bounds only, the second one being bounded no more than the first. -/
structure RelaxedTo (strict lax : Session) : Prop where
  interner : strict.interner = lax.interner
  program : strict.program = lax.program
  env : strict.env = lax.env
  depth : strict.depth = lax.depth
  nextClosure : strict.nextClosure = lax.nextClosure
  mode : lax.mode.Relaxes strict.mode
  calls : lax.mode.isBudgeted → strict.calls = lax.calls

theorem RelaxedTo.readsAs {strict lax : Session} (relaxed : strict.RelaxedTo lax) : strict.ReadsAs lax :=
  ⟨relaxed.interner, relaxed.program, relaxed.env⟩

theorem RelaxedTo.charged {strict lax : Session} (relaxed : strict.RelaxedTo lax) :
    strict.charged.RelaxedTo lax.charged := by
  refine { relaxed with calls := ?_ }
  intro budgeted
  obtain ⟨larger, found⟩ := Option.isSome_iff_exists.mp budgeted
  obtain ⟨budget, bounded, _⟩ := relaxed.mode.budget larger found
  have strictBudgeted : strict.mode.isBudgeted := by simp [Mode.isBudgeted, bounded]
  have laxBudgeted : lax.mode.isBudgeted := budgeted
  simp only [Session.charged, Mode.countCall, strictBudgeted, laxBudgeted, if_true, relaxed.calls laxBudgeted]

theorem RelaxedTo.accepts {strict lax : Session} (relaxed : strict.RelaxedTo lax)
    (accepted : strict.refusal? = none) : lax.refusal? = none := by
  rw [refusal?_eq_none_iff] at accepted ⊢
  constructor
  · intro larger found
    obtain ⟨budget, bounded, bound⟩ := relaxed.mode.budget larger found
    rw [← relaxed.calls (by simp [Mode.isBudgeted, found])]
    exact Nat.le_trans (accepted.1 budget bounded) bound
  · intro larger found
    obtain ⟨limit, bounded, bound⟩ := relaxed.mode.depth larger found
    rw [← relaxed.depth]
    exact Nat.lt_of_lt_of_le (accepted.2 limit bounded) bound

theorem RelaxedTo.entering {strict lax : Session} (relaxed : strict.RelaxedTo lax) (closure : Closure Value)
    (args : List Value) : (strict.entering closure args).RelaxedTo (lax.entering closure args) :=
  { relaxed with program := rfl, env := rfl, depth := congrArg (· + 1) relaxed.depth }

theorem RelaxedTo.leaving {strict lax inner other : Session} (relaxed : strict.RelaxedTo lax)
    (bodies : inner.RelaxedTo other) : (inner.leaving strict).RelaxedTo (other.leaving lax) :=
  { bodies with program := relaxed.program, env := relaxed.env, depth := congrArg (· - 1) bodies.depth }

theorem RelaxedTo.withScope {strict lax : Session} (relaxed : strict.RelaxedTo lax)
    (bindings : List (Name × Value)) : (strict.withScope bindings).RelaxedTo (lax.withScope bindings) :=
  { relaxed with env := congrArg (fun env => env.push.defineAll bindings) relaxed.env }

end Session

def Unlimited {α : Type} (outcome : Except EvalError α) : Prop :=
  ∀ error, outcome = .error error → error.cause.isLimit = false

theorem unlimited_ok {α : Type} (value : α) : Unlimited (.ok value) := by
  intro error impossible
  cases impossible

theorem Unlimited.error {α β : Type} {error : EvalError} (unlimited : Unlimited (.error error : Except EvalError α)) :
    Unlimited (.error error : Except EvalError β) := by
  intro other same
  exact unlimited other (congrArg _ (Except.error.inj same))

inductive SameOutcome {α β : Type} (results : α → β → Prop) : Except EvalError α → Except EvalError β → Prop
  | ok {left : α} {right : β} (related : results left right) : SameOutcome results (.ok left) (.ok right)
  | error (error : EvalError) : SameOutcome results (.error error) (.error error)

theorem SameOutcome.refl {α : Type} (outcome : Except EvalError α) : SameOutcome Eq outcome outcome := by
  cases outcome with
  | ok value => exact .ok rfl
  | error error => exact .error error

theorem SameOutcome.eq {α : Type} {left right : Except EvalError α} (same : SameOutcome Eq left right) :
    left = right := by
  cases same with
  | ok related => rw [related]
  | error error => rfl

theorem Unlimited.of_located {α : Type} {outcome : Except EvalError α} (span : Span)
    (unlimited : Unlimited (if span.isDummy then outcome else outcome.mapError (·.withSpan span))) :
    Unlimited outcome := by
  rintro error rfl
  split at unlimited
  next => exact unlimited error rfl
  next => exact unlimited (error.withSpan span) rfl

theorem SameOutcome.located {α β : Type} {results : α → β → Prop} {left : Except EvalError α}
    {right : Except EvalError β} (same : SameOutcome results left right) (span : Span) :
    SameOutcome results (if span.isDummy then left else left.mapError (·.withSpan span))
      (if span.isDummy then right else right.mapError (·.withSpan span)) := by
  split
  next => exact same
  next =>
    cases same with
    | ok related => exact .ok related
    | error error => exact .error _

open Evaluation

/-- Requests whose answer, if it does not report a limit, is also the answer in every less bounded session. -/
def Relaxable : Answering := fun request session answer after =>
  ∀ lax, session.RelaxedTo lax → Unlimited answer →
    ∃ final, Plan.Answers request lax answer final ∧ after.RelaxedTo final

namespace Evaluation.Matched

theorem relaxes {α β : Type} {results : α → β → Prop} {asks : ExprId → Prop} {left : Evaluation α}
    {right : Evaluation β} (matched : Matched .identity asks results left right) (session lax : Session)
    (relaxed : session.RelaxedTo lax) (outcome : Except EvalError α) (after : Session) (unlimited : Unlimited outcome)
    (reached : left.Reaches Relaxable session outcome after) :
    ∃ other final, right.Reaches Plan.Answers lax other final ∧ after.RelaxedTo final ∧
      SameOutcome results outcome other := by
  induction matched generalizing session lax after with
  | @returns _ _ _ _ right related =>
    obtain ⟨rfl, rfl⟩ := (reaches_pure ..).mp reached
    exact ⟨.ok right, lax, (reaches_pure ..).mpr ⟨rfl, rfl⟩, relaxed, .ok related⟩
  | fails error ordinary =>
    obtain ⟨rfl, rfl⟩ := (reaches_throw ..).mp reached
    exact ⟨.error error, lax, (reaches_throw ..).mpr ⟨rfl, rfl⟩, relaxed, .error error⟩
  | outOfRange gaps => exact absurd reached (reaches_outOfRange _ _ _ _)
  | reading rest followed =>
    exact followed session lax relaxed.readsAs session lax relaxed outcome after unlimited reached
  | part id allowed =>
    obtain ⟨final, answered, later⟩ := (reaches_ask ..).mp reached lax relaxed unlimited
    exact ⟨outcome, final, (reaches_ask ..).mpr answered, later, .refl outcome⟩
  | intern s =>
    obtain ⟨rfl, rfl⟩ := (reaches_intern ..).mp reached
    refine ⟨_, _, (reaches_intern ..).mpr ⟨rfl, rfl⟩, ?_, ?_⟩
    · exact { relaxed with interner := by rw [relaxed.interner] }
    · rw [relaxed.interner]
      exact .refl _
  | closure name params body allowed =>
    obtain ⟨rfl, rfl⟩ := (reaches_closure ..).mp reached
    refine ⟨_, _, (reaches_closure ..).mpr ⟨rfl, rfl⟩, ?_, ?_⟩
    · exact { relaxed with nextClosure := congrArg (· + 1) relaxed.nextClosure }
    · rw [relaxed.env, relaxed.program, relaxed.nextClosure]
      exact .refl _
  | invoke closures arity values =>
    obtain rfl := closures
    obtain rfl := Correspondence.eq_of_forall₂ _ _ values
    rcases (reaches_invoke ..).mp reached with ⟨error, refused, rfl, _⟩ | ⟨accepted, inner, body, rfl⟩
    · have limit := Session.refusal?_isLimit _ error refused
      rw [unlimited error rfl] at limit
      cases limit
    · obtain ⟨final, answered, later⟩ := body _ (relaxed.charged.entering _ _) unlimited
      refine ⟨outcome, _, (reaches_invoke ..).mpr (.inr ⟨?_, final, answered, rfl⟩), ?_, .refl outcome⟩
      · exact relaxed.charged.accepts accepted
      · exact relaxed.charged.leaving later
  | inScope bound body followed =>
    obtain rfl := Correspondence.eq_of_forall₂_fieldMatch _ _ bound
    obtain ⟨middle, inner, rfl⟩ := (reaches_inScope ..).mp reached
    obtain ⟨other, final, answered, later, same⟩ := followed _ _ (relaxed.withScope _) outcome middle unlimited inner
    refine ⟨other, _, (reaches_inScope ..).mpr ⟨final, answered, rfl⟩, ?_, same⟩
    exact { later with env := congrArg Environment.pop later.env }
  | @locate _ _ _ _ _ span _ places inner followed =>
    obtain rfl := places
    obtain ⟨found, evaluated, located⟩ := (reaches_locate ..).mp reached
    subst located
    obtain ⟨other, final, answered, later, same⟩ := followed session lax relaxed found after
      (unlimited.of_located span) evaluated
    exact ⟨_, final, (reaches_locate ..).mpr ⟨other, answered, rfl⟩, later, same.located span⟩
  | bind first rest firstFollowed restFollowed =>
    rcases (reaches_bind ..).mp reached with ⟨value, middle, before, following⟩ | ⟨error, failed, rfl⟩
    · obtain ⟨other, between, answered, later, same⟩ :=
        firstFollowed session lax relaxed (.ok value) middle (unlimited_ok value) before
      cases same with
      | @ok _ result related =>
        obtain ⟨last, final, ended, relaxedEnd, same⟩ :=
          restFollowed value result related middle between later outcome after unlimited following
        exact ⟨last, final, (reaches_bind ..).mpr (.inl ⟨result, between, answered, ended⟩), relaxedEnd, same⟩
    · obtain ⟨other, final, answered, later, same⟩ :=
        firstFollowed session lax relaxed (.error error) after unlimited.error failed
      cases same with
      | error => exact ⟨_, final, (reaches_bind ..).mpr (.inr ⟨error, answered, rfl⟩), later, .error error⟩

end Evaluation.Matched

theorem relaxable_sound : Plan.Answering.Sound Relaxable := by
  intro request session answer after reached lax relaxed unlimited
  obtain ⟨other, final, answered, later, same⟩ :=
    request.evaluate_matched.relaxes session lax relaxed answer after unlimited reached
  obtain rfl := same.eq
  obtain ⟨enough, finished⟩ := Plan.reaches_run _ answer final answered
  exact ⟨final, ⟨enough, finished enough (Nat.le_refl _)⟩, later⟩

theorem Session.RelaxedTo.eval {strict lax : Session} (relaxed : strict.RelaxedTo lax) (fuel : Nat) (id : ExprId)
    (result : Except EvalError Value) (final : Session) (finished : strict.eval fuel id = .finished result final)
    (unlimited : Unlimited result) :
    ∃ last, final.RelaxedTo last ∧ ∃ enough, ∀ more, enough ≤ more → lax.eval more id = .finished result last := by
  have reached := Plan.run_reaches Relaxable relaxable_sound fuel _ result final finished
  obtain ⟨other, last, answered, later, same⟩ :=
    (Request.part id).evaluate_matched.relaxes strict lax relaxed result final unlimited reached
  obtain rfl := same.eq
  exact ⟨last, later, Plan.reaches_run _ result last answered⟩

theorem Session.new_relaxedTo (interner : Interner) (program : Program) (env : Environment) (strict lax : Mode)
    (nextClosure : Nat) (relaxes : lax.Relaxes strict) :
    (Session.new interner program env strict nextClosure).RelaxedTo
      (Session.new interner program env lax nextClosure) :=
  ⟨rfl, rfl, rfl, rfl, rfl, relaxes, fun _ => rfl⟩

/-- A bounded evaluation that does not report a limit gives the result and the names of the unbounded one, and of
every one with a larger budget. -/
theorem Session.eval_conservative (interner : Interner) (program : Program) (env : Environment) (mode : Mode)
    (nextClosure fuel : Nat) (id : ExprId) (result : Except EvalError Value) (final : Session)
    (finished : (Session.new interner program env mode nextClosure).eval fuel id = .finished result final)
    (unlimited : Unlimited result) :
    (∃ last, last.interner = final.interner ∧ ∃ enough, ∀ more, enough ≤ more →
      (Session.new interner program env .interpret nextClosure).eval more id = .finished result last) ∧
    ∀ budget larger, mode = .constEval budget → budget ≤ larger →
      ∃ last, last.interner = final.interner ∧ ∃ enough, ∀ more, enough ≤ more →
        (Session.new interner program env (.constEval larger) nextClosure).eval more id = .finished result last := by
  -- Both parts compare the run with one in a mode that bounds it no more.
  have relaxed (lax : Mode) (relaxes : lax.Relaxes mode) : ∃ last, last.interner = final.interner ∧
      ∃ enough, ∀ more, enough ≤ more →
        (Session.new interner program env lax nextClosure).eval more id = .finished result last := by
    have fresh := Session.new_relaxedTo interner program env mode lax nextClosure relaxes
    obtain ⟨last, later, ended⟩ := fresh.eval fuel id result final finished unlimited
    exact ⟨last, later.interner.symm, ended⟩
  constructor
  · exact relaxed .interpret (Mode.interpret_relaxes mode)
  · intro budget larger bounded bound
    subst bounded
    exact relaxed (.constEval larger) (Mode.constEval_relaxes budget larger bound)

/-- `f(f(1))` for the identity `f` makes two calls. -/
theorem Session.eval_conservative_nested :
    let program : Program := ⟨0, { Arena.empty with
      exprs := #[⟨.ident ⟨7⟩, .dummy⟩, ⟨.lambda .empty ⟨0, 1⟩ ⟨0⟩, .dummy⟩, ⟨.int .one, .dummy⟩,
        ⟨.call ⟨1⟩ ⟨0, 1⟩, .dummy⟩, ⟨.call ⟨1⟩ ⟨1, 1⟩, .dummy⟩]
      exprLists := #[⟨2⟩, ⟨3⟩]
      names := #[⟨7⟩] }⟩
    ∃ final, (Session.new .new program .new (.constEval 2) 0).eval 20 ⟨4⟩ = .finished (.ok (.number .one)) final ∧
      (∃ last, last.interner = final.interner ∧ ∃ enough, ∀ more, enough ≤ more →
        (Session.new .new program .new .interpret 0).eval more ⟨4⟩ = .finished (.ok (.number .one)) last) ∧
      ∃ last, last.interner = final.interner ∧ ∃ enough, ∀ more, enough ≤ more →
        (Session.new .new program .new (.constEval 9) 0).eval more ⟨4⟩ = .finished (.ok (.number .one)) last := by
  intro program
  refine ⟨_, rfl, ?_⟩
  have same := Session.eval_conservative .new program .new (.constEval 2) 0 20 ⟨4⟩ _ _ rfl (unlimited_ok _)
  exact ⟨same.1, same.2 2 9 rfl (by decide)⟩

end TagLang
